import ViewDoc.Failure

/-!
What a computation gives: a result or a failure, and the journal of what it did on the way.

The journal is kept also when the computation fails, and a later step never changes what an earlier
one has written.
-/

namespace ViewDoc

inductive LogSource where
  | engine
  | registries
  | formatting
  | actions
  | config
deriving DecidableEq

def LogSource.name : LogSource → String
  | engine => "dynui.engine"
  | registries => "dynui.registries"
  | formatting => "dynui.formatting"
  | actions => "dynui.actions"
  | config => "dynui.config"

inductive Severity where
  | debug
  | info
  | error
deriving DecidableEq

namespace Severity

def level : Severity → Int
  | debug => 10
  | info => 20
  | error => 40

def name : Severity → String
  | debug => "DEBUG"
  | info => "INFO"
  | error => "ERROR"

end Severity

structure LogRecord where
  source : LogSource
  severity : Severity
  text : String

/-- A line of the journal: a log record, or an event that host code recorded. -/
inductive Entry where
  | log (record : LogRecord)
  | event (v : Value)

structure Outcome (α : Type) where
  result : Except Failure α
  journal : List Entry

namespace Outcome

variable {α β : Type}

def pure (a : α) : Outcome α := ⟨.ok a, []⟩

def fail (f : Failure) : Outcome α := ⟨.error f, []⟩

def ofExcept (r : Except Failure α) : Outcome α := ⟨r, []⟩

def bind (x : Outcome α) (f : α → Outcome β) : Outcome β :=
  match x.result with
  | .ok a => ⟨(f a).result, x.journal ++ (f a).journal⟩
  | .error e => ⟨.error e, x.journal⟩

instance : Monad Outcome where
  pure := Outcome.pure
  bind := Outcome.bind

/-- Goes on with a failure. -/
def recover (x : Outcome α) (f : Failure → Outcome α) : Outcome α :=
  match x.result with
  | .ok _ => x
  | .error e => ⟨(f e).result, x.journal ++ (f e).journal⟩

instance : MonadExcept Failure Outcome where
  throw := fail
  tryCatch := recover

instance : MonadLift (Except Failure) Outcome where
  monadLift := ofExcept

def log (source : LogSource) (severity : Severity) (text : String) : Outcome Unit :=
  ⟨.ok (), [.log ⟨source, severity, text⟩]⟩

def event (v : Value) : Outcome Unit := ⟨.ok (), [.event v]⟩

/-- Goes on with what happened, failed or not. -/
def attempt (x : Outcome α) : Outcome (Except Failure α) := ⟨.ok x.result, x.journal⟩

def events (x : Outcome α) : List Value :=
  x.journal.filterMap fun
    | .event v => some v
    | .log _ => none

@[simp] theorem result_pure (a : α) : (Pure.pure a : Outcome α).result = .ok a := rfl

@[simp] theorem result_fail (f : Failure) : (Outcome.fail f : Outcome α).result = .error f := rfl

@[simp] theorem result_throw (f : Failure) : (throw f : Outcome α).result = .error f := rfl

@[simp] theorem result_liftM (r : Except Failure α) : (liftM r : Outcome α).result = r := rfl

@[simp] theorem result_bind (x : Outcome α) (f : α → Outcome β) :
    (x >>= f).result = x.result.bind fun a => (f a).result := by
  obtain ⟨r, j⟩ := x
  cases r <;> rfl

@[simp] theorem result_map (f : α → β) (x : Outcome α) : (f <$> x).result = x.result.map f := by
  obtain ⟨r, j⟩ := x
  cases r <;> rfl

@[simp] theorem liftM_ok_bind (a : α) (f : α → Outcome β) :
    ((liftM (Except.ok a : Except Failure α) : Outcome α) >>= f) = f a := rfl

@[simp] theorem liftM_error_bind (e : Failure) (f : α → Outcome β) :
    ((liftM (Except.error e : Except Failure α) : Outcome α) >>= f) = .fail e := rfl

end Outcome
end ViewDoc
