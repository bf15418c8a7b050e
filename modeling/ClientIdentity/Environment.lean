import ClientIdentity.Text.Utf8

namespace ClientIdentity

/-- The values of the variables at one moment. -/
structure Environment where
  server : Option String
  apiKey : Option String
  certificate : Option String
  privateKey : Option String
  enclave : Option String
  deriving DecidableEq, Repr

/-- The names of the variables. -/
inductive Variable where
  | server
  | apiKey
  | certificate
  | privateKey
  | enclave
  deriving DecidableEq, Repr

def Variable.name : Variable → String
  | .server => "KES_SERVER"
  | .apiKey => "KES_API_KEY"
  | .certificate => "KES_CLIENT_CERT"
  | .privateKey => "KES_CLIENT_KEY"
  | .enclave => "KES_ENCLAVE"

namespace Environment

/-- The environment that a look-up describes. -/
def ofLookup (lookup : String → Option String) : Environment where
  server := lookup Variable.server.name
  apiKey := lookup Variable.apiKey.name
  certificate := lookup Variable.certificate.name
  privateKey := lookup Variable.privateKey.name
  enclave := lookup Variable.enclave.name

/-- The environment of a process, whose values may be any bytes. -/
def ofProcess (lookup : String → Option Bytes) : Environment :=
  ofLookup fun name => (lookup name).map Utf8.lossy

/-- The server of a client that names none. -/
def defaultServer : String := "https://127.0.0.1:7373"

/-- The enclave to work in: the given one if it is not empty, else the one of the environment if
that is not empty. -/
def enclaveFor (environment : Environment) (given : Option String) : Option String :=
  ((given.filter (!·.isEmpty)) <|> environment.enclave).filter (!·.isEmpty)

end Environment

end ClientIdentity
