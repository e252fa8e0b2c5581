import CongestionFabric.Runtime.Serving

namespace CongestionFabric

/-- A failure to accept that the loop goes on from, and counts. -/
def AcceptAnswer.Transient : AcceptAnswer → Prop
  | .channel => False
  | .failed status => status.code ≠ .cancelled ∧ status.code ≠ .closed ∧ status.code ≠ .unavailable

namespace Serving

variable {s s' : Serving} {i : Input} {es : List (Event Serving Input)} {e : Event Serving Input}

/-- The answer of the listener that an event has the loop act on. -/
def answerTaken (e : Event Serving Input) : List AcceptAnswer :=
  match e.before.phase, e.input with
  | .accepting _, .serve answer => if e.before.node.stopping then [] else [answer]
  | _, _ => []

def answersTaken (es : List (Event Serving Input)) : List AcceptAnswer := es.flatMap answerTaken

/-- The last answers of the listener were failures that count, so many. -/
def FailedLast (count : Nat) (answers : List AcceptAnswer) : Prop :=
  ∃ earlier late, answers = earlier ++ late ∧ late.length = count ∧ ∀ a ∈ late, a.Transient

theorem FailedLast.zero (answers : List AcceptAnswer) : FailedLast 0 answers :=
  ⟨answers, [], (List.append_nil _).symm, rfl, fun _ ha => absurd ha List.not_mem_nil⟩

theorem FailedLast.snoc {count : Nat} {answers : List AcceptAnswer} {a : AcceptAnswer}
    (h : FailedLast count answers) (ha : a.Transient) : FailedLast (count + 1) (answers ++ [a]) := by
  obtain ⟨earlier, late, rfl, hlength, hlate⟩ := h
  refine ⟨earlier, late ++ [a], List.append_assoc _ _ _, ?_, fun b hb => ?_⟩
  · rw [List.length_append, hlength]
    rfl
  · rcases List.mem_append.mp hb with hold | hnew
    · exact hlate b hold
    · obtain rfl := List.mem_singleton.mp hnew
      exact ha

/-- The count of the loop is that of the failures since the last answer that was none. -/
def Counted (answers : List AcceptAnswer) (s : Serving) : Prop :=
  ∀ failures, s.phase = .accepting failures →
    failures ≤ kMaxAcceptFailures ∧ FailedLast failures.toNat answers

/-- What an answer has the loop do. -/
theorem acceptFailed_counted {failures : UInt32} {answers : List AcceptAnswer} (status : Status)
    (hfew : failures ≤ kMaxAcceptFailures) (h : FailedLast failures.toNat answers) :
    Counted (answers ++ [.failed status]) (s.acceptFailed failures status) ∧
      ((s.acceptFailed failures status).phase = .leaving →
        (status.code = .cancelled ∨ status.code = .closed) ∨
          FailedLast 65 (answers ++ [.failed status])) := by
  unfold acceptFailed
  split_ifs with hover hgone hmany
  · refine ⟨fun failures' hphase => ?_, fun _ => .inl hover⟩
    cases hphase
  · refine ⟨fun failures' hphase => ?_, fun hphase => (by cases hphase)⟩
    obtain rfl := ServingPhase.accepting.inj hphase
    exact ⟨by decide, FailedLast.zero _⟩
  · refine ⟨fun failures' hphase => (by cases hphase), fun _ => .inr ?_⟩
    obtain ⟨hcancelled, hclosed⟩ := not_or.mp hover
    have hcount : failures.toNat + 1 = 65 := by
      unfold kMaxAcceptFailures at hfew hmany
      rw [UInt32.le_iff_toNat_le] at hfew
      rw [gt_iff_lt, UInt32.lt_iff_toNat_lt, UInt32.toNat_add] at hmany
      simp at hfew hmany
      omega
    exact hcount ▸ h.snoc ⟨hcancelled, hclosed, hgone⟩
  · refine ⟨fun failures' hphase => ?_, fun hphase => (by cases hphase)⟩
    obtain rfl := ServingPhase.accepting.inj hphase
    obtain ⟨hcancelled, hclosed⟩ := not_or.mp hover
    have hcount : (failures + 1).toNat = failures.toNat + 1 := by
      unfold kMaxAcceptFailures at hfew
      rw [UInt32.le_iff_toNat_le] at hfew
      rw [UInt32.toNat_add]
      simp at hfew ⊢
      omega
    refine ⟨UInt32.not_lt.mp hmany, ?_⟩
    rw [hcount]
    exact h.snoc ⟨hcancelled, hclosed, hgone⟩

theorem answersTaken_snoc (es : List (Event Serving Input)) (e : Event Serving Input) :
    answersTaken (es ++ [e]) = answersTaken es ++ answerTaken e := by
  unfold answersTaken
  rw [List.flatMap_append, List.flatMap_singleton]

/-- Only the thread that serves moves on from its phase. -/
theorem Goes.otherPhase (h : Goes s i s') (hother : ∀ answer, i ≠ .serve answer) :
    s'.phase = s.phase := by
  cases h with
  | looped => rfl
  | removed => rfl
  | parted => rfl
  | gone => rfl
  | swept => rfl
  | sweptOut => rfl
  | hosted => rfl
  | asked => rfl
  | _ => exact absurd rfl (hother _)

/-- A step that is not the loop's leaves its count alone. -/
theorem Goes.keepsCount (h : Goes s i s') (hcounted : Counted (answersTaken es) s)
    (helsewhere : ∀ failures answer, s.phase = .accepting failures → i ≠ .serve answer) :
    Counted (answersTaken (es ++ [⟨s, i, s'⟩])) s' := by
  have hnone : answerTaken ⟨s, i, s'⟩ = [] := by
    unfold answerTaken
    split
    next failures answer hphase hinput => exact absurd hinput (helsewhere failures answer hphase)
    next => rfl
  have hsame : s'.phase = s.phase → Counted (answersTaken (es ++ [⟨s, i, s'⟩])) s' := by
    intro hphase failures hfailures
    rw [answersTaken_snoc, hnone, List.append_nil]
    exact hcounted failures (hphase ▸ hfailures)
  have hzero : (∀ failures, s'.phase = .accepting failures → failures = 0) →
      Counted (answersTaken (es ++ [⟨s, i, s'⟩])) s' := by
    intro hzero failures hfailures
    obtain rfl := hzero failures hfailures
    exact ⟨by decide, FailedLast.zero _⟩
  cases h with
  | accepted hphase => exact absurd rfl (helsewhere _ _ hphase)
  | admitted =>
    refine hzero fun failures hfailures => ?_
    unfold Serving.takeOn at hfailures
    dsimp only at hfailures
    split_ifs at hfailures
    exact (ServingPhase.accepting.inj hfailures).symm
  | spawned => exact hzero fun failures hfailures => (ServingPhase.accepting.inj hfailures).symm
  | reaped => exact hzero fun failures hfailures => (by cases hfailures)
  | counted => exact hzero fun failures hfailures => (by cases hfailures)
  | left => exact hzero fun failures hfailures => (by cases hfailures)
  | joined => exact hzero fun failures hfailures => (by cases hfailures)
  | drained => exact hzero fun failures hfailures => (by cases hfailures)
  | returned => exact hzero fun failures hfailures => (by cases hfailures)
  | stopped => exact hzero fun failures hfailures => (by cases hfailures)
  | shut => exact hzero fun failures hfailures => (by cases hfailures)
  | _ => exact hsame rfl

/-- Why the loop has ended. -/
def EndsFor (answers : List AcceptAnswer) (e : Event Serving Input) : Prop :=
  e.before.node.stopping = true ∨
    (∃ status, e.input = .serve (.failed status) ∧
      (status.code = .cancelled ∨ status.code = .closed)) ∨ FailedLast 65 answers

/-- A turn of the loop. -/
theorem serve_counted {failures : UInt32} (answer : AcceptAnswer)
    (hphase : s.phase = .accepting failures) (hcounted : Counted (answersTaken es) s) :
    Counted (answersTaken (es ++ [⟨s, .serve answer, s.serve answer⟩])) (s.serve answer) ∧
      ((s.serve answer).phase = .leaving →
        EndsFor (answersTaken (es ++ [⟨s, .serve answer, s.serve answer⟩]))
          ⟨s, .serve answer, s.serve answer⟩) := by
  rw [answersTaken_snoc]
  have hserve : s.serve answer = if s.node.stopping then { s with phase := .leaving }
      else match answer with
        | .channel => { s with phase := .reaping }
        | .failed status => s.acceptFailed failures status := by
    cases answer with
    | channel => simp only [Serving.serve, hphase]
    | failed status => simp only [Serving.serve, hphase]
  have htaken : ∀ s', answerTaken ⟨s, .serve answer, s'⟩ =
      if s.node.stopping then [] else [answer] := by
    intro s'
    unfold answerTaken
    dsimp only
    rw [hphase]
  rw [htaken, hserve]
  by_cases hstopping : s.node.stopping = true
  · rw [if_pos hstopping, if_pos hstopping]
    exact ⟨fun failures' hnext => (by cases hnext), fun _ => .inl hstopping⟩
  · rw [if_neg hstopping, if_neg hstopping]
    obtain ⟨hfew, hfailed⟩ := hcounted failures hphase
    cases answer with
    | channel => exact ⟨fun failures' hnext => (by cases hnext), fun hnext => (by cases hnext)⟩
    | failed status =>
      obtain ⟨hnext, hends⟩ := acceptFailed_counted status hfew hfailed
      refine ⟨hnext, fun hleaving => .inr ?_⟩
      exact (hends hleaving).imp_left fun hcode => ⟨status, rfl, hcode⟩

variable {fabric : Fabric} {maxFrames periodMs : UInt64} {maxConnections : Nat}

theorem run_counted (run : Run Step (starting fabric maxFrames maxConnections periodMs) es s) :
    Counted (answersTaken es) s := by
  induction run with
  | start =>
    intro failures hfailures
    obtain rfl := ServingPhase.accepting.inj hfailures
    exact ⟨by decide, FailedLast.zero _⟩
  | @next es s₁ s₂ i run hstep ih =>
    by_cases hloop : ∃ failures answer, s₁.phase = .accepting failures ∧ i = .serve answer
    · obtain ⟨failures, answer, hphase, rfl⟩ := hloop
      obtain ⟨_, rfl⟩ := hstep
      exact (serve_counted answer hphase ih).1
    · refine hstep.goes.keepsCount ih fun failures answer hphase hinput => hloop ?_
      exact ⟨failures, answer, hphase, hinput⟩

/-- The accept loop endures. In every run it ends only because the stop was requested, because the
listener says that it was cancelled or closed, or after 65 failures in a row of which none was a peer
that vanished: whatever else happens between them, one connection, accepted or abandoned, starts the
count anew. -/
theorem accept_loop_endures
    (run : Run Step (starting fabric maxFrames maxConnections periodMs) (es ++ [e]) s)
    {failures : UInt32} (hloop : e.before.phase = .accepting failures)
    (hends : e.after.phase = .leaving) : EndsFor (answersTaken (es ++ [e])) e := by
  obtain ⟨run₁, hstep, _⟩ := run.snoc_inv
  have hcounted := run_counted run₁
  obtain ⟨before, i, after⟩ := e
  by_cases hi : ∃ answer, i = .serve answer
  · obtain ⟨answer, rfl⟩ := hi
    obtain ⟨_, hserve⟩ := hstep
    have hserve : before.serve answer = after := hserve
    subst hserve
    exact (serve_counted answer hloop hcounted).2 hends
  · have hsame := hstep.goes.otherPhase fun answer hserve => hi ⟨answer, hserve⟩
    have hsame : after.phase = before.phase := hsame
    change before.phase = .accepting failures at hloop
    change after.phase = .leaving at hends
    rw [hsame, hloop] at hends
    cases hends

def acceptError : Input := .serve (.failed ⟨.ioError, "accept failed", ""⟩)

/-- One failure to accept after another. -/
def failingVisit : List Input := List.replicate 64 acceptError

def failingServing : Serving := failingVisit.foldl apply servingStart

set_option maxRecDepth 100000 in
theorem failingServing_ends : failingServing.phase = .accepting 64 ∧
    failingServing.node.stopping = false ∧ (failingServing.apply acceptError).phase = .leaving := by
  decide +kernel

theorem accept_loop_endures_failing :
    FailedLast 65 (answersTaken (events apply servingStart failingVisit ++
      [⟨failingServing, acceptError, failingServing.apply acceptError⟩])) := by
  obtain ⟨hphase, hrunning, hleaving⟩ := failingServing_ends
  have run : Run Step servingStart (events apply servingStart failingVisit) failingServing :=
    run_inputs servingStart fun i hi s => by
      obtain rfl := List.eq_of_mem_replicate hi
      trivial
  have hends := accept_loop_endures
    (run.next (show Step failingServing acceptError _ from ⟨trivial, rfl⟩)) hphase hleaving
  rcases hends with hstop | ⟨status, hinput, hcode⟩ | hfailed
  · change failingServing.node.stopping = true at hstop
    rw [hrunning] at hstop
    cases hstop
  · obtain rfl := AcceptAnswer.failed.inj (Input.serve.inj hinput)
    rcases hcode with hcode | hcode
    · cases hcode
    · cases hcode
  · exact hfailed

end Serving

end CongestionFabric
