import ContractHost.Proofs.History
import ContractHost.Proofs.Journal
import ContractHost.Proofs.Retained

/-!
# Parts of a diff that add up to a table

Some parts of a diff are tables, and all that ever happens to them is that a question enters
something into the table on top, and that a merge joins two tables that lie next to each other.  If
joining does not care about brackets, the tables of all frames joined from the root upwards are one
table into which every question enters its own.  No invariant is needed to say so, and a journal
(`Journal`) follows this table through every nested call.

* `Accrual` — such a part of a diff; `joined` — the tables of some diffs, joined.
* `Accrual.of_sets` — sets of entries, where joining is union.
* **`Accrual.execute`** — what every host that is asked has of the part, and what the diff that an
  execution returns has of it.
-/

namespace ContractHost

variable {σ τ : Type}

/-- A part of a diff that a new frame starts without, into which a question enters something, and
that a merge joins. -/
structure Accrual (update : Query → τ → τ) (join : τ → τ → τ) (part : FrameDiff → τ) : Prop where
  join_start : ∀ table, join table (part {}) = table
  start_join : ∀ table, join (part {}) table = table
  join_assoc : ∀ oldest older newer, join (join oldest older) newer = join oldest (join older newer)
  /-- What is entered into the newer table is entered into both. -/
  join_update : ∀ query older newer,
    join older (update query newer) = update query (join older newer)
  record : ∀ (host : Host) (query : Query) (diff : FrameDiff),
    part (query.record host diff) = update query (part diff)
  merge : ∀ older newer : FrameDiff, part (older.merge newer) = join (part older) (part newer)

/-- The parts of some diffs joined, the one on top last. -/
def joined (join : τ → τ → τ) (part : FrameDiff → τ) : List FrameDiff → τ
  | [] => part {}
  | diff :: below => join (joined join part below) (part diff)

/-- What a joined table has, some frame has. -/
lemma joined_iff {join : τ → τ → τ} {part : FrameDiff → τ} (has : τ → Prop)
    (unset : ¬ has (part {}))
    (either : ∀ older newer, has (join older newer) ↔ has older ∨ has newer)
    (diffs : List FrameDiff) : has (joined join part diffs) ↔ ∃ diff ∈ diffs, has (part diff) := by
  induction diffs with
  | nil => simpa [joined] using unset
  | cons diff below ih => rw [joined, either, ih, List.exists_mem_cons_iff, or_comm]

/-- Since a question was asked in a run, a frame was there to ask it. -/
lemma Visit.live {host last later : Host} {message : CallMessage} {input : Bytes}
    {outcome : Except Fault Outcome} {moments before after : List Moment} {query : Query}
    {answer : query.Answer} (visit : Visit host message input outcome moments last)
    (shown : moments = before ++ ⟨later, .answered query answer⟩ :: after) {asked : Host}
    (answered : asked.answer query = (answer, later)) :
    ∃ frame below, asked.stack.frames = frame :: below := by
  cases idle : asked.stack.frames with
  | cons frame below => exact ⟨frame, below, rfl⟩
  | nil =>
      -- without a frame before the answer there is none after it, but the engine goes on
      have gone := (Host.answer_completed idle query).idle
      rw [answered] at gone
      have traced := visit.traced
      rw [shown] at traced
      obtain ⟨top, below, live⟩ := (traced.at_split trivial).live
      rw [live] at gone
      cases gone

namespace Accrual

variable {update : Query → τ → τ} {join : τ → τ → τ} {part : FrameDiff → τ}

/-- **The joined tables of the frames track the one table.** -/
theorem tracks (accrual : Accrual update join part) (start : Store) :
    Tracks start update fun diffs table => joined join part diffs = table where
  enter := by
    intro diffs table holds
    rw [joined, accrual.join_start, holds]
  answer := by
    intro host diff below table query _ _ holds
    rw [joined, accrual.record, accrual.join_update]
    exact congrArg (update query) holds
  merge := by
    intro child parent below table holds
    rw [joined, accrual.merge, ← accrual.join_assoc]
    exact holds

/-- **The part as a whole is one table.**  Let a table start empty, let every question enter its
own, and put the table back to what it was whenever a nested call that reached an engine ends
without success.  Then this is what the frames of every host that is asked have together, and what
the diff that an execution returns has in the end. -/
theorem execute (accrual : Accrual update join part) (engine : Engine σ) (state : σ) {host : Host}
    (idle : host.stack.frames = []) (message : CallMessage) (input : Bytes) :
    let run := ContractHost.execute engine Observer.recorder state ⟨host, []⟩ message input
    (∀ before later after query answer,
      run.2.2.notes = before ++ ⟨later, .answered query answer⟩ :: after →
      ∃ (asked : Host) (frame : Frame) (below : List Frame),
        asked.stack.frames = frame :: below ∧ asked.answer query = (answer, later) ∧
        joined join part asked.stack.diffs
          = ((Journal.mk (part {}) []).replay update before).current) ∧
    ∀ execution, run.1 = .ok execution →
      part execution.diff = ((Journal.mk (part {}) []).replay update run.2.2.notes).current := by
  intro run
  obtain ⟨along, returned⟩ := execute_tracks (accrual.tracks host.store) engine state idle
    (Store.Extends.refl host.store) (rfl : joined join part [] = part {}) message input
  obtain ⟨outcome, last, visit, -⟩ := execute_visits (rfl : _ = run)
  constructor
  · intro before later after query answer shown
    change Journal.Along _ _ _ run.2.2.notes at along
    rw [shown] at along
    obtain ⟨asked, answered, -, holds⟩ := along.at_split.asked _ _ rfl
    obtain ⟨frame, below, live⟩ := visit.live shown answered
    exact ⟨asked, frame, below, live, answered, holds⟩
  · intro execution answered
    refine Eq.trans ?_ (returned execution answered)
    rw [joined, joined, accrual.start_join]

end Accrual

/-! ## Sets -/

section Sets

variable {κ : Type} [Ord κ] [Std.TransOrd κ] [Std.LawfulEqOrd κ]

/-- A question adds its entry to a set, if it has one. -/
def enlist (entryOf : Query → Option κ) (query : Query) (set : Std.ExtTreeSet κ) :
    Std.ExtTreeSet κ :=
  match entryOf query with
  | some entry => set.insert entry
  | none => set

/-- Sets of entries accrue, if questions and merges do to them what they should. -/
lemma Accrual.of_sets {entryOf : Query → Option κ} {part : FrameDiff → Std.ExtTreeSet κ}
    (start : part {} = ∅)
    (record : ∀ (host : Host) (query : Query) (diff : FrameDiff),
      part (query.record host diff) = enlist entryOf query (part diff))
    (merge : ∀ older newer : FrameDiff, part (older.merge newer) = part older ∪ part newer) :
    Accrual (enlist entryOf) (· ∪ ·) part where
  join_start table := by
    rw [start]
    exact Std.ExtTreeSet.ext_mem (by simp)
  start_join table := by
    rw [start]
    exact Std.ExtTreeSet.ext_mem (by simp)
  join_assoc oldest older newer := Std.ExtTreeSet.ext_mem (by simp [or_assoc])
  join_update query older newer := by
    unfold enlist
    cases entryOf query with
    | none => rfl
    | some entry => exact Std.ExtTreeSet.ext_mem (by simp [or_left_comm])
  record := record
  merge := merge

end Sets

end ContractHost
