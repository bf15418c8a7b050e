import ClientIdentity.KeyPair
import ClientIdentity.Pem.Printer
import ClientIdentity.Pem.Scan

namespace ClientIdentity.KeyFile

/-- What is asked when a key is encrypted. -/
def question : String := "Enter password for private key: "

/-- Tells the log what the search for a block passed over. -/
def logSkipped (skipped : List Pem.Malformed) : Run Unit :=
  skipped.forM fun piece =>
    Run.log .debug .blocks
      ("skipping malformed PEM block '" ++ Utf8.lossy piece.label ++ "': " ++ piece.fault.message)

/-- The block without encryption. -/
def unlock (reader : SecretReader) (block : Pem.Block) : Run Pem.Block := do
  if !block.isEncrypted then return block
  let tag := block.tag
  Run.log .debug .privateKey s!"'{tag}' block is encrypted, asking for password"
  let password ← Run.ask reader question
  match Pem.Encryption.decrypt block (Utf8.encode password) with
  | .ok contents => return { tag, headerLines := [], contents }
  | .error fault => Run.fail (.ofDecryption fault)

/-- The private key of a block: the block is written out and its section read back. -/
def privateKeyOf (block : Pem.Block) : Except PairFault PrivateKey :=
  match Pem.Section.firstPrivateKey (block.encode .crlf) with
  | .error fault => .error (.unreadable fault)
  | .ok none => .error (.unsupportedTag block.tag)
  | .ok (some key) => .ok key

/-- The private key in the contents of a file. -/
def privateKeyIn (reader : SecretReader) (contents : Bytes) : Run PrivateKey := do
  let search := Pem.find? Pem.Block.isPrivateKey contents
  logSkipped search.skipped
  match search.found with
  | none => Run.fail .noPrivateKey
  | some block =>
    let block ← unlock reader block
    Run.ofExcept ((privateKeyOf block).mapError .keyPair)

/-- Loads the private key of a file. -/
def loadPrivateKey (files : FileSystem) (reader : SecretReader) (path : String) :
    Run PrivateKey :=
  match files.read (Utf8.encode path) with
  | .error fault => Run.fail (.readPrivateKey path fault)
  | .ok contents => privateKeyIn reader contents

/-- The certificates of a file, of which there may be none. -/
def readCertificates (files : FileSystem) (path : Bytes) : Except FileFault (List Bytes) :=
  match files.read path with
  | .error fault => .error (.system fault)
  | .ok contents => (Pem.Section.certificates contents).mapError .malformed

/-- Loads the certificates of a file, of which there must be one. -/
def loadCertificates (files : FileSystem) (path : String) : Run (List Bytes) :=
  match readCertificates files (Utf8.encode path) with
  | .error fault => Run.fail (.readCertificate path fault)
  | .ok [] => Run.fail (.noCertificate path)
  | .ok (first :: more) => do
    let count := more.length + 1
    Run.log .debug .certificate s!"loaded {count} certificate(s) from {path}"
    return first :: more

/-- Loads a pair from a file of certificates and a file with the key. -/
def loadKeyPair (files : FileSystem) (reader : SecretReader) (certificate key : String) :
    Run KeyPair := do
  let chain ← loadCertificates files certificate
  let privateKey ← loadPrivateKey files reader key
  let pair ← Run.ofExcept ((KeyPair.make chain privateKey).mapError .keyPair)
  Run.log .info .keyPair s!"loaded TLS client certificate {certificate} with key {key}"
  return pair

end ClientIdentity.KeyFile
