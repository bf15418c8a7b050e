import ClientIdentity.Handshake.Verifier

namespace ClientIdentity.Handshake

/-- The two sides of a handshake. -/
inductive Side where
  | client
  | server
  deriving DecidableEq, Repr

def Side.name : Side → String
  | .client => "client"
  | .server => "server"

/-- The bytes that a side signs, from the digest of the messages so far: 64 spaces, the purpose of the
signature, a zero byte and the digest. -/
def signedContent (side : Side) (digest : Bytes) : Bytes :=
  List.replicate 64 0x20 ++ Utf8.encode ("TLS 1.3, " ++ side.name ++ " CertificateVerify") ++
    0 :: digest

/-- Why a handshake is broken off. -/
inductive Fault (library : TlsLibrary) where
  | noCertificates
  /-- A message comes out of turn, or is missing. -/
  | unexpectedMessage
  | failed (fault : library.Fault)

/-- What both sides agree on before certificates are shown: the name by which the client addresses the
server, and how the messages are digested that follow. `now` is the time of the client. -/
structure Connection where
  name : String
  now : Nat
  digest : List Message → Bytes

/-- How far a client is in a handshake. -/
inductive Phase where
  /-- No certificates yet, and perhaps a request for those of the client. -/
  | waiting (request : Option (List Nat))
  /-- The server has shown its certificates. -/
  | shown (request : Option (List Nat)) (chain : List Bytes) (status : Bytes)
  /-- The server is verified. -/
  | verified (request : Option (List Nat))
  /-- The handshake is complete, with the messages that the client sends. -/
  | done (answer : List Message)
  deriving DecidableEq, Repr

/-- A client in a handshake, with the messages that it has received. -/
structure State where
  said : List Message
  phase : Phase
  deriving DecidableEq, Repr

def State.initial : State :=
  ⟨[], .waiting none⟩

section Client

variable (library : TlsLibrary) (config : ClientConfig) (connection : Connection)

/-- Verifies a server by its certificates and its signature, where `said` are the messages in front of
the signature. -/
def checkServer (said : List Message) (chain : List Bytes) (status : Bytes) (signed : Signed) :
    Except (Fault library) Unit :=
  match chain with
  | [] => .error .noCertificates
  | leaf :: intermediates => do
    let verifier := config.verification.verifier library
    let presented := ⟨leaf, intermediates, connection.name, status, connection.now⟩
    let content := signedContent .server (connection.digest said)
    (verifier.verifyCertificate presented).mapError .failed
    (verifier.verifySignature13 content leaf signed).mapError .failed

/-- The messages that a client sends behind those that it has received. Where certificates are requested
it shows its own and signs, or it shows none if its key has no scheme of the offer. -/
def answer (said : List Message) (request : Option (List Nat)) :
    Except (Fault library) (List Message) :=
  match request with
  | none => .ok [.finished]
  | some offer =>
    match config.chooseScheme offer with
    | none => .ok [.certificates [] [], .finished]
    | some scheme => do
      let shown := Message.certificates config.pair.chain []
      let content := signedContent .client (connection.digest (said ++ [shown]))
      let signature ← (library.sign config.pair.key scheme content).mapError .failed
      return [shown, .signature ⟨scheme, signature⟩, .finished]

/-- One message of the server. -/
def receive (state : State) (message : Message) : Except (Fault library) State :=
  let said := state.said ++ [message]
  match state.phase, message with
  | .waiting none, .request offer => .ok ⟨said, .waiting (some offer)⟩
  | .waiting request, .certificates chain status => .ok ⟨said, .shown request chain status⟩
  | .shown request chain status, .signature signed => do
    checkServer library config connection state.said chain status signed
    return ⟨said, .verified request⟩
  | .verified request, .finished => do
    return ⟨said, .done (← answer library config connection said request)⟩
  | _, _ => .error .unexpectedMessage

/-- All messages of the server. -/
def receiveAll (messages : List Message) : Except (Fault library) State :=
  messages.foldlM (receive library config connection) .initial

end Client

/-- A server: the certificates and the status that it shows, the public half of its key as certificates
hold it, and whether it asks for certificates. -/
structure Server (library : TlsLibrary) where
  chain : List Bytes
  status : Bytes
  subjectInfo : Bytes
  request : Option (List Nat)
  /-- Signs a message under one of the schemes that are offered. -/
  sign : List Nat → Bytes → Except library.Fault Signed
  /-- Judges the messages of the client. -/
  admits : List Message → Except library.Fault Unit

/-- The messages of a server in front of its signature. -/
def shownBy (request : Option (List Nat)) (chain : List Bytes) (status : Bytes) : List Message :=
  (request.map Message.request).toList ++ [.certificates chain status]

namespace Server

variable {library : TlsLibrary}

/-- The messages in front of the signature. -/
def shown (server : Server library) : List Message :=
  shownBy server.request server.chain server.status

/-- The signature of a server, under one of the schemes that are offered. -/
def signature (server : Server library) (connection : Connection) (offer : List Nat) :
    Except library.Fault Signed :=
  server.sign offer (signedContent .server (connection.digest server.shown))

/-- All messages of a server. -/
def flight (server : Server library) (signed : Signed) : List Message :=
  server.shown ++ [.signature signed, .finished]

end Server

/-- The handshake of a client with a server. An error names the side that breaks off. -/
def run (library : TlsLibrary) (config : ClientConfig) (connection : Connection)
    (server : Server library) : Except (Side × Fault library) Unit := do
  let offer := (config.verification.verifier library).schemes
  let signed ← (server.signature connection offer).mapError fun fault => (.server, .failed fault)
  let flight := server.flight signed
  (library.deliver flight).mapError fun fault => (.client, .failed fault)
  let state ← (receiveAll library config connection flight).mapError fun fault => (.client, fault)
  match state.phase with
  | .done answer => (server.admits answer).mapError fun fault => (.server, .failed fault)
  | _ => .error (.client, .unexpectedMessage)

end ClientIdentity.Handshake
