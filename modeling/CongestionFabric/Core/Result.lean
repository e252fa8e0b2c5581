namespace CongestionFabric

inductive ErrCode where
  | ok | invalidArgument | outOfRange | notFound | alreadyExists | stale | unauthorized
  | conflict | contradictory | malformed | truncated | corrupt | oversized | limitExceeded
  | cancelled | unavailable | notReady | closed | internal | epochMismatch
  | generationMismatch | bootMismatch | attemptMismatch | fenced | duplicate | unsupported
  | ioError | integrityFailure | policyRejected
  deriving DecidableEq

structure Status where
  code : ErrCode := .ok
  message : String := ""
  detail : String := ""
  deriving DecidableEq

def Status.describe (status : Status) : String :=
  if status.detail = "" then status.message else status.message ++ ": " ++ status.detail

abbrev Result (α : Type) := Except Status α
abbrev VoidResult := Result Unit

def succeed : VoidResult := .ok ()

def fail {α : Type} (code : ErrCode) (message : String) (detail : String := "") : Result α :=
  .error ⟨code, message, detail⟩

def Result.isOk {α : Type} : Result α → Bool
  | .ok _ => true
  | .error _ => false

def Result.code {α : Type} : Result α → ErrCode
  | .ok _ => .ok
  | .error status => status.code

theorem Result.exists_of_isOk {α : Type} {x : Result α} (h : x.isOk = true) :
    ∃ a, x = .ok a := by
  cases x with
  | ok a => exact ⟨a, rfl⟩
  | error e => simp [Result.isOk] at h

/-- One guarded early return; a validator is a sequence of these. -/
def refuseIf (bad : Prop) [Decidable bad] (code : ErrCode) (message : String) : VoidResult :=
  if bad then fail code message else succeed

@[simp] theorem refuseIf_ok {bad : Prop} [Decidable bad] {code : ErrCode} {message : String}
    {u : Unit} : refuseIf bad code message = .ok u ↔ ¬bad := by
  unfold refuseIf succeed fail
  split <;> simp [*]

theorem bind_ok {α β : Type} {x : Result α} {f : α → Result β} {b : β} :
    (x >>= f) = .ok b ↔ ∃ a, x = .ok a ∧ f a = .ok b := by
  cases x with
  | error e => simp [bind, Except.bind]
  | ok a => simp [bind, Except.bind]

theorem map_ok {α β : Type} {x : Result α} {f : α → β} {b : β} :
    f <$> x = .ok b ↔ ∃ a, x = .ok a ∧ f a = b := by
  cases x with
  | error e => simp [Functor.map, Except.map]
  | ok a => simp [Functor.map, Except.map]

end CongestionFabric
