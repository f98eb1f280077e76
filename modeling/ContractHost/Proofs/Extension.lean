import ContractHost.Store.Basic
import Mathlib.Tactic

/-!
# Stores that only gained empty accounts

`newer.Extends older` says that every account of the older store is in the newer one as it was, and
that every other account of the newer store is empty.  An execution changes its store in no other
way, so reading code, slots and balances gives the same before and after; only the questions that
tell an empty account from none can see a difference.
-/

namespace ContractHost.Store

/-- Every account is as it was, or is empty and was not there. -/
def Extends (newer older : Store) : Prop :=
  ∀ address, newer.get? address = older.get? address ∨
    (older.get? address = none ∧ newer.get? address = some {})

lemma Extends.refl (store : Store) : store.Extends store := fun _ => Or.inl rfl

lemma Extends.trans {newest newer older : Store} (late : newest.Extends newer)
    (early : newer.Extends older) : newest.Extends older := by
  intro address
  rcases early address with same | ⟨absent, empty⟩
  · rcases late address with same' | ⟨absent', empty'⟩
    · exact Or.inl (same'.trans same)
    · exact Or.inr ⟨same ▸ absent', empty'⟩
  · rcases late address with same' | ⟨absent', _⟩
    · exact Or.inr ⟨absent, same'.trans empty⟩
    · rw [empty] at absent'
      exact absurd absent' (by simp)

lemma contains_eq_isSome_get? (store : Store) (address : Address) :
    store.contains address = (store.get? address).isSome := by
  simp [contains, get?]

lemma get?_insert (store : Store) (changed address : Address) (account : Account) :
    (store.insert changed account).get? address
      = if changed = address then some account else store.get? address := by
  simp [insert, get?, Std.ExtTreeMap.getElem?_insert]

/-- Making an account puts an empty one where there was none. -/
lemma get?_create (store : Store) (created address : Address) :
    (store.create created).2.get? address
      = if created = address ∧ store.get? address = none then some {} else store.get? address := by
  rw [create, contains_eq_isSome_get?]
  cases found : store.get? created with
  | none =>
      simp only [Option.isSome_none, Bool.false_eq_true, if_false, get?_insert]
      by_cases same : created = address
      · subst same
        simp only [found, and_self, if_true]
      · simp only [same, false_and, if_false]
  | some account =>
      simp only [Option.isSome_some, if_true]
      split_ifs with fresh
      · rw [fresh.1, fresh.2] at found
        simp at found
      · rfl

lemma create_extends (store : Store) (created : Address) :
    (store.create created).2.Extends store := by
  intro address
  rw [get?_create]
  split_ifs with fresh
  · exact Or.inr ⟨fresh.2, rfl⟩
  · exact Or.inl rfl

/-! ## What an empty account does not change -/

variable {newer older : Store}

lemma Extends.slot_eq (grown : newer.Extends older) (address : Address) (key : Word) :
    newer.slot address key = older.slot address key := by
  rcases grown address with same | ⟨absent, empty⟩
  · simp [slot, same]
  · simp [slot, absent, empty]

lemma Extends.code_eq (grown : newer.Extends older) (address : Address) :
    newer.code address = older.code address := by
  rcases grown address with same | ⟨absent, empty⟩
  · simp [code, same]
  · simp [code, absent, empty]

/-- A balance counts as zero whether an account is empty or unknown. -/
lemma Extends.balance_eq (grown : newer.Extends older) (address : Address) :
    (newer.balance? address).getD 0 = (older.balance? address).getD 0 := by
  rcases grown address with same | ⟨absent, empty⟩
  · simp [balance?, same]
  · simp [balance?, absent, empty]

end ContractHost.Store
