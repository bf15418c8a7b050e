import ClientIdentity.Der.Element

namespace ClientIdentity.Der

/-- The contents of a number: its shortest big-endian form with a clear top bit. -/
def naturalContents (n : Nat) : Bytes :=
  match Bytes.minimal n with
  | [] => [0]
  | first :: rest => if first < 0x80 then first :: rest else 0 :: first :: rest

def natural (n : Nat) : Bytes :=
  encode .integer (naturalContents n)

def sequence (elements : List Bytes) : Bytes :=
  encode .sequence elements.flatten

/-- A bit string of whole bytes. -/
def bitString (contents : Bytes) : Bytes :=
  encode .bitString (0 :: contents)

def octetString (contents : Bytes) : Bytes :=
  encode .octetString contents

def objectIdentifier (contents : Bytes) : Bytes :=
  encode .objectIdentifier contents

def null : Bytes :=
  encode .null []

namespace ObjectIdentifier

/-- 1.2.840.113549.1.1.1 -/
def rsaEncryption : Bytes := [0x2A, 0x86, 0x48, 0x86, 0xF7, 0x0D, 0x01, 0x01, 0x01]

/-- 1.2.840.10045.2.1 -/
def ecPublicKey : Bytes := [0x2A, 0x86, 0x48, 0xCE, 0x3D, 0x02, 0x01]

/-- 1.2.840.10045.3.1.7 -/
def p256 : Bytes := [0x2A, 0x86, 0x48, 0xCE, 0x3D, 0x03, 0x01, 0x07]

/-- 1.3.132.0.34 -/
def p384 : Bytes := [0x2B, 0x81, 0x04, 0x00, 0x22]

/-- 1.3.101.112 -/
def ed25519 : Bytes := [0x2B, 0x65, 0x70]

/-- 2.5.4.3 -/
def commonName : Bytes := [0x55, 0x04, 0x03]

/-- 2.5.29.`last`, an extension of a certificate. -/
def extension (last : UInt8) : Bytes := [0x55, 0x1D, last]

/-- 1.3.6.1.5.5.7.3.2 -/
def clientAuthentication : Bytes := [0x2B, 0x06, 0x01, 0x05, 0x05, 0x07, 0x03, 0x02]

/-- 1.2.840.10045.4.3.2 -/
def ecdsaWithSha256 : Bytes := [0x2A, 0x86, 0x48, 0xCE, 0x3D, 0x04, 0x03, 0x02]

/-- 1.2.840.10045.4.3.3 -/
def ecdsaWithSha384 : Bytes := [0x2A, 0x86, 0x48, 0xCE, 0x3D, 0x04, 0x03, 0x03]

/-- 1.2.840.113549.1.1.10 -/
def rsaProbabilistic : Bytes := [0x2A, 0x86, 0x48, 0x86, 0xF7, 0x0D, 0x01, 0x01, 0x0A]

/-- 1.2.840.113549.1.1.8 -/
def maskGeneration : Bytes := [0x2A, 0x86, 0x48, 0x86, 0xF7, 0x0D, 0x01, 0x01, 0x08]

/-- 2.16.840.1.101.3.4.2.3 -/
def sha512 : Bytes := [0x60, 0x86, 0x48, 0x01, 0x65, 0x03, 0x04, 0x02, 0x03]

end ObjectIdentifier

end ClientIdentity.Der
