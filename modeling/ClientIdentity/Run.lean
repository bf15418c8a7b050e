import ClientIdentity.Error

namespace ClientIdentity

/-- The parts of the program that write to the log. -/
inductive Topic where
  | blocks
  | privateKey
  | certificate
  | keyPair
  | credentials
  | apiKey
  | client
  deriving DecidableEq, Repr

def Topic.name : Topic → String
  | .blocks => "kes_auth::tls::pem"
  | .privateKey => "kes_auth::tls::key"
  | .certificate => "kes_auth::tls::certificate"
  | .keyPair => "kes_auth::tls"
  | .credentials => "kes_auth::credentials"
  | .apiKey => "kes_auth::api_key"
  | .client => "kes_auth::client"

/-- How important a line of the log is, the least first. -/
inductive Level where
  | debug
  | info
  | warn
  deriving DecidableEq, Repr

def Level.rank : Level → Nat
  | .debug => 0
  | .info => 1
  | .warn => 2

/-- A line of the log. -/
structure Record where
  level : Level
  topic : Topic
  text : String
  deriving DecidableEq, Repr

/-- What a run lets be seen. -/
inductive Event where
  | logged (line : Record)
  /-- A question, and what the terminal shows because of it. -/
  | asked (question shown : String)
  deriving DecidableEq, Repr

/-- The question of an event. -/
def Event.question? : Event → Option String
  | .logged _ => none
  | .asked question _ => some question

/-- What came of a question: the secret or an error, and what the terminal shows. -/
structure Answer where
  outcome : Except Error String
  shown : String

/-- Someone who can be asked for a secret. -/
abbrev SecretReader := (question : String) → Answer

/-- What was seen of a computation, and what came of it. -/
structure Run (α : Type) where
  events : List Event
  outcome : Except Error α

namespace Run

instance : Monad Run where
  pure value := ⟨[], .ok value⟩
  bind run next :=
    match run.outcome with
    | .error error => ⟨run.events, .error error⟩
    | .ok value => ⟨run.events ++ (next value).events, (next value).outcome⟩

/-- A run without events. -/
def ofExcept {α : Type} (outcome : Except Error α) : Run α :=
  ⟨[], outcome⟩

def fail {α : Type} (error : Error) : Run α :=
  ⟨[], .error error⟩

def log (level : Level) (topic : Topic) (text : String) : Run Unit :=
  ⟨[.logged ⟨level, topic, text⟩], .ok ()⟩

/-- Asks for a secret. -/
def ask (reader : SecretReader) (question : String) : Run String :=
  let answer := reader question
  ⟨[.asked question answer.shown], answer.outcome⟩

/-- The questions of a run, in order. -/
def questions {α : Type} (run : Run α) : List String :=
  run.events.filterMap Event.question?

end Run

end ClientIdentity
