import MessageCatalog.Text.Basic

/-!
# Log entries

What a run reports besides its result, as a list of entries in the order they were made.

## Main statements

* `Logged.result_bind` : the result of two runs in turn does not depend on what they log
-/

namespace MessageCatalog

/-- The weight of a log entry, from the heaviest on. -/
inductive LogLevel where
  | error
  | warn
  | info
  | debug
  | trace
  deriving DecidableEq, Repr

namespace LogLevel

/-- The name of a level in capitals. -/
def name : LogLevel → String
  | .error => "ERROR"
  | .warn => "WARN"
  | .info => "INFO"
  | .debug => "DEBUG"
  | .trace => "TRACE"

end LogLevel

/-- One log entry. -/
structure LogEntry where
  level : LogLevel
  message : String
  deriving DecidableEq, Repr

namespace LogEntry

/-- An entry about something that was passed over. -/
def warning (message : String) : LogEntry := ⟨.warn, message⟩

/-- An entry about the course of a run. -/
def information (message : String) : LogEntry := ⟨.info, message⟩

end LogEntry

/-- The result of a run together with the entries it logged, also when it failed. -/
structure Logged (ε α : Type) where
  logs : List LogEntry
  result : Except ε α

namespace Logged

variable {ε α β : Type}

/-- A run that logs nothing. -/
def ofExcept (x : Except ε α) : Logged ε α := ⟨[], x⟩

/-- Fail without logging anything. -/
def fail (e : ε) : Logged ε α := ⟨[], .error e⟩

/-- Log one entry. -/
def log (entry : LogEntry) : Logged ε Unit := ⟨[entry], .ok ()⟩

/-- Log some entries. -/
def logAll (entries : List LogEntry) : Logged ε Unit := ⟨entries, .ok ()⟩

/-- Go on with a result; the entries of both runs are kept in order. -/
def andThen (x : Logged ε α) (f : α → Logged ε β) : Logged ε β :=
  match x.result with
  | .ok a => ⟨x.logs ++ (f a).logs, (f a).result⟩
  | .error e => ⟨x.logs, .error e⟩

instance : Monad (Logged ε) where
  pure a := ⟨[], .ok a⟩
  bind := andThen

instance : MonadLift (Except ε) (Logged ε) := ⟨ofExcept⟩

/-- The same run with its failure seen as another one. -/
def mapError {ε' : Type} (f : ε → ε') (x : Logged ε α) : Logged ε' α := ⟨x.logs, x.result.mapError f⟩

/-- The result of two runs in turn is that of their results in turn. -/
@[simp]
theorem result_bind (x : Logged ε α) (f : α → Logged ε β) :
    (x >>= f).result = x.result >>= fun a => (f a).result := by
  change (andThen x f).result = _
  unfold andThen
  cases x.result <;> rfl

@[simp]
theorem result_pure (a : α) : (pure a : Logged ε α).result = .ok a := rfl

@[simp]
theorem result_log (entry : LogEntry) : (log entry : Logged ε Unit).result = .ok () := rfl

end Logged

end MessageCatalog
