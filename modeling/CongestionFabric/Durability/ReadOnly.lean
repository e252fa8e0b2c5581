import CongestionFabric.Durability.StoreCall

namespace CongestionFabric.Store

/-- The operations on a store that is open read-only. -/
inductive Operation where
  | call (stamp : MutationStamp) (c : StoreCall)
  | checkpoint
  | sync
  | reopen (options : StoreOptions)

/-- The store after an operation; a reopen that fails leaves the store there was. -/
def operate (store : Store) : Operation → Store
  | .call stamp c => (store.call stamp c).1
  | .checkpoint => store.checkpoint.1
  | .sync => store
  | .reopen options =>
    match openDisk store.disk { options with readOnly := true } with
    | .ok reopened => reopened
    | .error _ => store

def operateAll (store : Store) (operations : List Operation) : Store :=
  operations.foldl operate store

/-- The container a checkpoint puts in the place of the snapshot file, if it gets that far. -/
def writesSnapshot (store : Store) : Option Bytes :=
  if store.isOpen then (compact store.document).toOption.map (·.1) else none

variable {store store' : Store} {disk : Disk} {options : StoreOptions} {kind : MutationKind}
  {payload : Bytes} {stamp : MutationStamp} {operation : Operation} {operations : List Operation}

/-! ### What a read-only store leaves alone -/

/-- A store that is open and may only read. -/
structure ReadsOnly (store : Store) : Prop where
  isOpen : store.isOpen = true
  journal : store.journal.options.readOnly = true

theorem ReadsOnly.commit (h : store.ReadsOnly) (kind : MutationKind) (payload : Bytes)
    (stamp : MutationStamp) : (store.commit kind payload stamp).1 = store := by
  have happend : ∀ type epoch generation transaction body,
      store.journal.append type epoch generation transaction body =
        (store.journal, fail .unauthorized "journal is open read-only") := by
    intro type epoch generation transaction body
    unfold Journal.append
    rw [if_pos h.journal]
  unfold Store.commit
  split
  · rfl
  · have hgroup : appendGroup store.journal kind payload stamp =
        (store.journal, fail .unauthorized "journal is open read-only") := by
      unfold appendGroup
      dsimp only
      rw [happend]
      rfl
    rw [hgroup]
    rfl

/-- No setter changes a read-only store. -/
theorem ReadsOnly.call (h : store.ReadsOnly) (stamp : MutationStamp) (c : StoreCall) :
    (store.call stamp c).1 = store := by
  rcases store.call_cases stamp c with ⟨status, hrefused⟩ | ⟨payload, _, hcommit⟩
  · rw [hrefused]
  · rw [hcommit]
    exact h.commit c.kind payload (c.stamped stamp)

/-- A checkpoint leaves the journal and the document; the snapshot it has already replaced when the
journal refuses to be rebased. -/
theorem ReadsOnly.checkpoint (h : store.ReadsOnly) :
    store.checkpoint.1 = { store with snapshot := store.writesSnapshot.or store.snapshot } := by
  have hrebase : store.journal.rebase store.document.epoch
      store.document.authorityGeneration.value =
        (store.journal, fail .unauthorized "journal is open read-only") := by
    unfold Journal.rebase
    rw [if_pos h.journal]
  unfold Store.checkpoint writesSnapshot
  rw [if_neg (by simp [h.isOpen]), if_pos h.isOpen]
  cases hcompact : compact store.document with
  | error status => rfl
  | ok compacted =>
    dsimp only
    split
    · rfl
    · rw [hrebase]
      rfl

/-- A read-only open keeps the directory as it found it, torn tails included. -/
theorem openDisk_readOnly (hread : options.readOnly = true)
    (h : openDisk disk options = .ok store) : store.ReadsOnly ∧ store.disk = disk := by
  unfold openDisk at h
  obtain ⟨loaded, _, h⟩ := bind_ok.mp h
  obtain ⟨journal, hjournal, h⟩ := bind_ok.mp h
  obtain ⟨replay, _, h⟩ := bind_ok.mp h
  have hfile : disk.journal = some journal.file ∧ journal.options.readOnly = true := by
    unfold Journal.openFile journalOptions at hjournal
    cases hdisk : disk.journal with
    | none =>
      rw [hdisk] at hjournal
      simp [hread, fail] at hjournal
    | some bytes =>
      rw [hdisk] at hjournal
      obtain rfl := Except.ok.inj hjournal
      exact ⟨rfl, hread⟩
  dsimp only at h
  split at h
  · cases h
  · obtain ⟨settled, hsettled, h⟩ := bind_ok.mp h
    obtain rfl := Except.ok.inj h
    have hresume : ∀ next, (journal.resumeSequence next).file = journal.file ∧
        (journal.resumeSequence next).options = journal.options := by
      intro next
      unfold Journal.resumeSequence
      split
      · exact ⟨rfl, rfl⟩
      · exact ⟨rfl, rfl⟩
    have hsame : settled.1.file = journal.file ∧ settled.1.options = journal.options := by
      unfold settleTail at hsettled
      rw [hread, if_pos rfl] at hsettled
      split at hsettled
      · obtain rfl := Except.ok.inj hsettled
        exact hresume _
      · obtain rfl := Except.ok.inj hsettled
        exact hresume _
    refine ⟨⟨rfl, (congrArg JournalOptions.readOnly hsame.2).trans hfile.2⟩, ?_⟩
    unfold Store.disk
    rw [hsame.1, ← hfile.1]

/-! ### Runs of operations -/

/-- One operation keeps a store read-only, and its directory unless it is a checkpoint that gets as
far as writing. -/
theorem ReadsOnly.operate (h : store.ReadsOnly) (operation : Operation) :
    (store.operate operation).ReadsOnly ∧
      ((operation = .checkpoint → store.writesSnapshot = none) →
        (store.operate operation).disk = store.disk) := by
  cases operation with
  | call stamp c =>
    have hcall : store.operate (.call stamp c) = store := h.call stamp c
    rw [hcall]
    exact ⟨h, fun _ => rfl⟩
  | checkpoint =>
    have hcheckpoint : store.operate .checkpoint = _ := h.checkpoint
    rw [hcheckpoint]
    refine ⟨⟨h.isOpen, h.journal⟩, fun hnone => ?_⟩
    rw [hnone rfl]
    rfl
  | sync => exact ⟨h, fun _ => rfl⟩
  | reopen options =>
    unfold Store.operate
    dsimp only
    split
    next reopened hreopen =>
      obtain ⟨hreads, hdisk⟩ := openDisk_readOnly rfl hreopen
      exact ⟨hreads, fun _ => hdisk⟩
    next => exact ⟨h, fun _ => rfl⟩

theorem ReadsOnly.operateAll (h : store.ReadsOnly) (operations : List Operation) :
    (store.operateAll operations).ReadsOnly := by
  induction operations generalizing store with
  | nil => exact h
  | cons operation rest ih => exact ih (h.operate operation).1

/-- Along the operations the files hold the same bytes, and no snapshot file is put in place. -/
structure WritesNothing (store : Store) (operations : List Operation) : Prop where
  bytes : ∀ before after, operations = before ++ after →
    (store.operateAll before).disk = store.disk
  replaced : ∀ before after, operations = before ++ .checkpoint :: after →
    (store.operateAll before).writesSnapshot = none

/-- A read-only store writes nothing exactly when every checkpoint asked of it finds a document it
cannot compact. -/
theorem readOnly_writes_nothing_iff (hread : options.readOnly = true)
    (h : openDisk disk options = .ok store) : store.WritesNothing operations ↔
      ∀ before after, operations = before ++ .checkpoint :: after →
        (compact (store.operateAll before).document).isOk = false := by
  obtain ⟨hreads, _⟩ := openDisk_readOnly hread h
  have hwrites : ∀ before, (store.operateAll before).writesSnapshot = none ↔
      (compact (store.operateAll before).document).isOk = false := by
    intro before
    unfold writesSnapshot
    rw [if_pos (hreads.operateAll before).isOpen]
    cases compact (store.operateAll before).document with
    | error status => exact iff_of_true rfl rfl
    | ok compacted => exact iff_of_false nofun nofun
  constructor
  · intro hnothing before after heq
    exact (hwrites before).mp (hnothing.replaced before after heq)
  · intro hfails
    have hreplaced : ∀ before after, operations = before ++ .checkpoint :: after →
        (store.operateAll before).writesSnapshot = none :=
      fun before after heq => (hwrites before).mpr (hfails before after heq)
    refine ⟨fun before => ?_, hreplaced⟩
    induction before using List.reverseRecOn with
    | nil => exact fun _ _ => rfl
    | append_singleton before operation ih =>
      intro after heq
      have hbefore := ih (operation :: after) (by simpa using heq)
      have hstep := ((hreads.operateAll before).operate operation).2 fun hcheckpoint => by
        subst hcheckpoint
        exact hreplaced before after (by simpa using heq)
      refine Eq.trans ?_ (hstep.trans hbefore)
      unfold Store.operateAll
      rw [List.foldl_append]
      rfl

/-- A directory with an empty journal and no snapshot. -/
def emptyJournal : Disk := { journal := some [] }

def readingOptions : StoreOptions := { readOnly := true }

theorem readOnly_writes_nothing_calls : ∃ store,
    openDisk emptyJournal readingOptions = .ok store ∧
    store.WritesNothing [.call {} (.advanceEpoch ⟨1⟩ ⟨1⟩ 1), .sync, .reopen {}] := by
  obtain ⟨store, hstore⟩ : ∃ store, openDisk emptyJournal readingOptions = .ok store :=
    Result.exists_of_isOk (by decide +kernel)
  refine ⟨store, hstore, (readOnly_writes_nothing_iff rfl hstore).mpr ?_⟩
  intro before after heq
  have hmem : Operation.checkpoint ∈
      [Operation.call {} (.advanceEpoch ⟨1⟩ ⟨1⟩ 1), .sync, .reopen {}] := by
    rw [heq]
    simp
  simp at hmem

set_option maxRecDepth 100000 in
/-- A checkpoint of a read-only store creates the snapshot before the journal refuses. -/
theorem readOnly_checkpoint_writes : ∃ store,
    openDisk emptyJournal readingOptions = .ok store ∧
    store.checkpoint.2.code = .unauthorized ∧ store.checkpoint.1.disk ≠ emptyJournal ∧
    ¬store.WritesNothing [.checkpoint] := by
  obtain ⟨store, hstore⟩ : ∃ store, openDisk emptyJournal readingOptions = .ok store :=
    Result.exists_of_isOk (by decide +kernel)
  have hfacts : (openDisk emptyJournal readingOptions).toOption.any (fun store =>
      store.checkpoint.2.code = .unauthorized ∧ store.checkpoint.1.disk ≠ emptyJournal) = true := by
    decide +kernel
  rw [hstore] at hfacts
  obtain ⟨hcode, hdisk⟩ := of_decide_eq_true hfacts
  refine ⟨store, hstore, hcode, hdisk, fun hnothing => hdisk ?_⟩
  exact (hnothing.bytes [.checkpoint] [] rfl).trans (openDisk_readOnly rfl hstore).2

end CongestionFabric.Store
