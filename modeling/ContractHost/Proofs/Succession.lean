import ContractHost.Proofs.Accrual
import ContractHost.Proofs.NestedCall
import ContractHost.Proofs.Registry

/-!
# The last word on an inheritance

An account may be registered for destruction many times, in many frames, each time with another
heir.  Whether it was registered before is asked of all live frames, but the registration is
written into the frame on top.  So the heir that a nested call names replaces the one that its
caller has named, and gives way to it again if the call ends without success.

* `registered` — the heirs after some moments; a journal saves them and puts them back.
* `lastHeir?` — the heir in the last of some registrations.
* **`execute_registrations`** — every registration of every run, and those of a returned diff.
-/

namespace ContractHost

variable {σ : Type}

/-! ## One map of heirs -/

/-- A question registers an account, with an heir that replaces any earlier one. -/
def enroll : Query → Std.ExtTreeMap Address Address → Std.ExtTreeMap Address Address
  | .destroy subject heir, heirs => heirs.insert subject heir
  | _, heirs => heirs

/-- The registered accounts after the first moments of an execution, with their heirs. -/
def registered (moments : List Moment) : Std.ExtTreeMap Address Address :=
  ((Journal.mk ∅ []).replay enroll moments).current

/-- **The registrations of all frames are one map.** -/
theorem accrual_destroyed : Accrual enroll (· ∪ ·) FrameDiff.destroyed where
  join_start heirs := Std.ExtTreeMap.ext_getElem? (by simp [Std.ExtTreeMap.getElem?_union])
  start_join heirs := Std.ExtTreeMap.ext_getElem? (by simp [Std.ExtTreeMap.getElem?_union])
  join_assoc oldest older newer :=
    Std.ExtTreeMap.ext_getElem? (by simp [Std.ExtTreeMap.getElem?_union, Option.or_assoc])
  join_update query older newer := by
    cases query with
    | destroy subject heir =>
        exact Std.ExtTreeMap.union_insert_right_eq_insert_union (p := ⟨subject, heir⟩)
    | _ => rfl
  record host query diff := by
    cases query with
    | destroy subject heir =>
        simp only [Query.record]
        split_ifs <;> rfl
    | log address data topics =>
        simp only [Query.record]
        split <;> rfl
    | accountExists | accessAccount | accessSlot | slot | setSlot | balance | codeSize | codeHash
    | code | txContext | blockHash => rfl
  merge _ _ := rfl

lemma CallStack.isDestroyed_iff_joined (stack : CallStack) (address : Address) :
    stack.isDestroyed address = true
      ↔ address ∈ joined (· ∪ ·) FrameDiff.destroyed stack.diffs := by
  rw [joined_iff (fun heirs => address ∈ heirs) (by simp) (by simp), isDestroyed_iff]
  simp only [Std.ExtTreeMap.contains_iff_mem]

/-! ## The last registration -/

/-- The registration that a question asks for. -/
def Query.bequest? : Query → Option Bequest
  | .destroy subject heir => some ⟨subject, heir⟩
  | _ => none

/-- The heir that the last registration of an account names. -/
def lastHeir? (bequests : List Bequest) (subject : Address) : Option Address :=
  bequests.reverse.findSome? fun bequest =>
    if bequest.subject = subject then some bequest.heir else none

@[simp] lemma lastHeir?_nil (subject : Address) : lastHeir? [] subject = none := rfl

@[simp] lemma lastHeir?_append (older newer : List Bequest) (subject : Address) :
    lastHeir? (older ++ newer) subject
      = (lastHeir? newer subject).or (lastHeir? older subject) := by
  simp [lastHeir?, List.findSome?_append]

/-- What a question registers is the last word on its account. -/
lemma getElem?_enroll (query : Query) (heirs : Std.ExtTreeMap Address Address)
    (subject : Address) :
    (enroll query heirs)[subject]?
      = (lastHeir? query.bequest?.toList subject).or heirs[subject]? := by
  cases query with
  | destroy other heir =>
      rw [enroll, Std.ExtTreeMap.getElem?_insert]
      by_cases same : other = subject <;> simp [Query.bequest?, lastHeir?, same]
  | _ => rfl

/-- **A diff has the last heir of every account that is registered in it.** -/
theorem recording_heirs : Recording Query.bequest? fun diff bequests =>
    ∀ subject, diff.destroyed[subject]? = lastHeir? bequests subject where
  enter _ := rfl
  answer host query diff bequests held subject := by
    rw [accrual_destroyed.record, getElem?_enroll, lastHeir?_append, held]
  merge := by
    intro older newer early late heldEarly heldLate subject
    rw [accrual_destroyed.merge, Std.ExtTreeMap.getElem?_union, lastHeir?_append, heldEarly,
      heldLate]

/-! ## Executions -/

/-- **Registrations are one map of heirs.**  Let it start empty, let every registration overwrite
the heir of its account, and let the map be put back to what it was whenever a nested call that
reached an engine ends without success.  Then a registration is answered as the first one exactly
if its account was not in the map right before, and the returned diff has exactly the final map:
every account with the heir that its last registration names, of those made in the frame at the
root or in one that ended in success together with all frames between it and the root. -/
theorem execute_registrations (engine : Engine σ) (state : σ) (store : Store)
    (txContext : TxContext) (settings : Settings) (blockHashes : Std.ExtTreeMap Int64 Word)
    (message : CallMessage) (input : Bytes) :
    let run := execute engine Observer.recorder state
      ⟨{ store, txContext, settings, blockHashes }, []⟩ message input
    (∀ before later after subject heir first,
      run.2.2.notes = before ++ ⟨later, .answered (.destroy subject heir) first⟩ :: after →
      (first = true ↔ subject ∉ registered before)) ∧
    ∀ execution, run.1 = .ok execution →
      execution.diff.destroyed = registered run.2.2.notes ∧
      ∀ subject, execution.diff.destroyed[subject]?
        = lastHeir? (retained Query.bequest? run.2.2.notes.dropLast) subject := by
  intro run
  have idle : ({ store, txContext, settings, blockHashes } : Host).stack.frames = [] := rfl
  obtain ⟨asked, final⟩ := accrual_destroyed.execute engine state idle message input
  constructor
  · intro before later after subject heir first shown
    obtain ⟨asked, frame, below, live, answered, known⟩ := asked _ _ _ _ _ shown
    have told : first = !asked.stack.isDestroyed subject :=
      (congrArg Prod.fst answered).symm.trans (Host.destroy_answer live subject heir)
    rw [told, Bool.not_eq_true', ← Bool.not_eq_true, CallStack.isDestroyed_iff_joined, known]
    rfl
  · intro execution answered
    refine ⟨final execution answered, ?_⟩
    obtain ⟨outcome, last, visit, report, -⟩ := execute_visits (rfl : _ = run)
    obtain ⟨-, finished, rfl, rfl⟩ := reported_eq_ok.1 (report.symm.trans answered)
    exact visit.recorded recording_heirs rfl

/-- Names an heir, and calls itself to name another one, which is undone. -/
def Engine.wavering : Engine Bool where
  name := "wavering"
  version := "1"
  start nested _ _ _ :=
    if nested then .ask (.destroy Address.zero Address.zero) fun _ =>
      .finish true (Result.revert 0).encode
    else .ask (.destroy Address.zero stranger) fun _ =>
      .call true selfCall.encode.toList fun _ _ => .finish false (Result.success 0).encode

/-- The first heir is the one that stays. -/
theorem wavering_registrations :
    let run := execute Engine.wavering Observer.recorder false ⟨{ store := .empty }, []⟩ selfCall []
    ∃ execution, run.1 = .ok execution ∧
      execution.diff.destroyed[Address.zero]? = some stranger := by
  have ran : (execute Engine.wavering Observer.recorder false ⟨{ store := .empty }, []⟩ selfCall
        []).1.isOk = true ∧
      lastHeir? (retained Query.bequest? (execute Engine.wavering Observer.recorder false
        ⟨{ store := .empty }, []⟩ selfCall []).2.2.notes.dropLast) Address.zero
        = some stranger := by
    decide +kernel
  have spec := execute_registrations Engine.wavering false .empty {} {} ∅ selfCall []
  -- the run itself need not be looked at again
  generalize execute Engine.wavering _ _ _ _ _ = run at ran spec ⊢
  obtain ⟨answer, state, world⟩ := run
  obtain ⟨-, final⟩ := spec
  cases answer with
  | error fault => simp [Except.isOk, Except.toBool] at ran
  | ok execution => exact ⟨execution, rfl, ((final execution rfl).2 Address.zero).trans ran.2⟩

end ContractHost
