import CongestionFabric.Eval.Admission
import CongestionFabric.Fabric.Evidence
import CongestionFabric.Runtime.ExactlyOnce

namespace CongestionFabric

/-! ### Time stamps -/

namespace Publisher

open CongestionEvaluator

end Publisher

/-! ### Batch after batch -/

namespace Exchange

open Fabric

variable {e₀ e e' : Exchange} {es : List (Event Exchange Move)} {m : Move}
  {options : PublisherClientOptions} {script : PublisherScript}

/-- The generation of the batch at an index of the script. -/
def generationAt (script : PublisherScript) (index : Nat) : EvidenceGeneration :=
  ⟨script.generationStart + UInt64.ofNat index⟩

/-- The batches that were written carry the generations of the script in order. -/
def Numbered (e : Exchange) : Prop :=
  ∀ index batch, e.sent[index]? = some batch →
    ∀ sample ∈ batch.samples, sample.generation = generationAt e.publisher.script index

theorem Numbered.snoc {batch : EvidenceBatch} (h : Numbered e)
    (hscript : e'.publisher.script = e.publisher.script) (hsent : e'.sent = e.sent ++ [batch])
    (hbatch : ∀ sample ∈ batch.samples,
      sample.generation = generationAt e.publisher.script e.sent.length) : Numbered e' := by
  intro index found hfound
  rw [hsent] at hfound
  rw [hscript]
  by_cases hold : index < e.sent.length
  · rw [List.getElem?_append_left hold] at hfound
    exact h index found hfound
  · obtain ⟨hlt, _⟩ := List.getElem?_eq_some_iff.mp hfound
    rw [List.length_append, List.length_singleton] at hlt
    obtain rfl : index = e.sent.length := by omega
    rw [List.getElem?_append_right (le_refl _), Nat.sub_self] at hfound
    obtain rfl := Option.some.inj hfound
    exact hbatch

theorem Numbered.congr (h : Numbered e) (hscript : e'.publisher.script = e.publisher.script)
    (hsent : e'.sent = e.sent) : Numbered e' := by
  intro index batch hfound
  rw [hsent] at hfound
  rw [hscript]
  exact h index batch hfound

theorem sent_outgoing (hstep : Step e m e') :
    e'.sent = e.sent ∨ ∃ clock, e'.sent = e.sent ++ e.publisher.outgoing clock := by
  obtain ⟨_, rfl⟩ := hstep
  cases m with
  | publisherWrites clock fate failure =>
    unfold apply publisherWrites
    dsimp only
    split
    · exact .inl rfl
    · split
      · exact .inl rfl
      · exact .inr ⟨clock, rfl⟩
  | publisherReads clock fate =>
    refine .inl ?_
    unfold apply publisherReads
    dsimp only
    split <;> rfl
  | elsewhere i => exact .inl rfl
  | sessionReads fate =>
    refine .inl ?_
    unfold apply sessionReads
    dsimp only
    split
    next => rfl
    next => split_ifs <;> rfl
  | sessionMoves seen fate =>
    refine .inl ?_
    unfold apply sessionMoves
    dsimp only
    split
    next => rfl
    next => split <;> rfl

theorem step_numbered (hstep : Step e m e')
    (hbooks : Publisher.Books e.publisher e.sent.length) (h : Numbered e) : Numbered e' := by
  have hscript := step_script hstep
  rcases sent_outgoing hstep with hsent | ⟨clock, hsent⟩
  · exact h.congr hscript hsent
  · unfold Publisher.outgoing at hsent
    split at hsent
    next index hstage =>
      cases hbatch : e.publisher.batchAt index clock with
      | error status =>
        rw [hbatch] at hsent
        exact h.congr hscript (hsent.trans (List.append_nil _))
      | ok batch =>
        rw [hbatch] at hsent
        refine h.snoc hscript hsent ?_
        intro sample hsample
        unfold Publisher.Books at hbooks
        rw [hstage] at hbooks
        obtain ⟨hlength, _, _⟩ := hbooks
        rw [(Publisher.batchAt_samples hbatch).1] at hsample
        obtain ⟨resource, _, rfl⟩ := List.mem_map.mp hsample
        rw [hlength]
        rfl
    next => exact h.congr hscript (hsent.trans (List.append_nil _))

theorem run_numbered (hstart : Starts e₀ options script) (run : Run Step e₀ es e) :
    Numbered e := by
  induction run with
  | start =>
    intro index batch hfound
    rw [hstart.sent] at hfound
    cases hfound
  | next run hstep ih => exact step_numbered hstep (run_sound run hstart).1.books ih

/-- As long as its generations do not run over, a publisher's later evidence always replaces its
earlier evidence: no sample of a batch is taken for a duplicate of an earlier batch of the pass. -/
theorem exchange_supersedes (hstart : Starts e₀ options script) (run : Run Step e₀ es e)
    (hroom : script.generationStart.toNat + e.sent.length ≤ 2 ^ 64) :
    e.sent.Pairwise fun earlier later =>
      ∀ old ∈ earlier.samples, ∀ new ∈ later.samples, supersedes new old = true := by
  have hnumbered := run_numbered hstart run
  have hscript := run_script hstart run
  rw [List.pairwise_iff_getElem]
  intro i j hi hj hij old hold new hnew
  have hfirst := hnumbered i _ (List.getElem?_eq_getElem hi) old hold
  have hsecond := hnumbered j _ (List.getElem?_eq_getElem hj) new hnew
  rw [hscript] at hfirst hsecond
  have hvalue : ∀ k < e.sent.length, (generationAt script k).value.toNat =
      script.generationStart.toNat + k := by
    intro k hk
    unfold generationAt
    dsimp only
    have hbound : k < 2 ^ 64 := by omega
    rw [UInt64.toNat_add, UInt64.toNat_ofNat', Nat.mod_eq_of_lt hbound]
    exact Nat.mod_eq_of_lt (by omega)
  have hgreater : new.generation > old.generation := by
    rw [hfirst, hsecond]
    have hless : (generationAt script i).value < (generationAt script j).value := by
      rw [UInt64.lt_iff_toNat_lt, hvalue i hi, hvalue j hj]
      omega
    exact hless
  unfold supersedes
  simp [hgreater]

/-- A script of two batches, and a pass that writes both. -/
def twoSamples : PublisherScript := { oneSample with samples := 2 }

def passedTwice : Exchange :=
  (onePass ++ roundTrip ++ settling).foldl apply (connected twoSamples)

set_option maxRecDepth 100000 in
theorem passedTwice_sent : passedTwice.sent.length = 2 ∧
    passedTwice.sent.all (fun batch => !batch.samples.isEmpty) = true := by
  decide +kernel

theorem exchange_supersedes_passed : passedTwice.sent.length = 2 ∧
    (passedTwice.sent.all fun batch => !batch.samples.isEmpty) = true ∧
    passedTwice.sent.Pairwise fun earlier later =>
      ∀ old ∈ earlier.samples, ∀ new ∈ later.samples, supersedes new old = true := by
  obtain ⟨hcount, hsamples⟩ := passedTwice_sent
  have run : Run Step (connected twoSamples)
      (events apply (connected twoSamples) (onePass ++ roundTrip ++ settling)) passedTwice :=
    run_moves _ (by decide)
  have hroom : twoSamples.generationStart.toNat + passedTwice.sent.length ≤ 2 ^ 64 := by
    rw [hcount]
    decide
  exact ⟨hcount, hsamples,
    exchange_supersedes (client_starts (by decide) (by decide)) run hroom⟩

end Exchange

end CongestionFabric
