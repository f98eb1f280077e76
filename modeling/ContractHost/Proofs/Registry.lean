import ContractHost.Engine.Query
import ContractHost.Proofs.Total

/-!
# Who inherits from whom

A registry lists the destroyed accounts with their heirs.  It holds every account at most once, and
only the first destruction counts: the heir that a later one names is ignored.  The money that a
store has for a destroyed account is forfeited by it and inherited by its heir, once.

So all movements add up to zero (`Registry.sum_movement`), and since nothing is inherited that some
account did not have, no balance leaves the range between zero and the total
(`Registry.movement_bounds`).  These bounds are why sums of movements never saturate.
-/

namespace ContractHost

instance : LawfulBEq Address := inferInstance

/-- A destroyed account and its heir. -/
structure Bequest where
  subject : Address
  heir : Address

/-- The destructions in force, oldest first. -/
abbrev Registry := List Bequest

namespace Registry

def subjects (registry : Registry) : List Address := registry.map Bequest.subject

/-- The registry after a destruction; a repeated one changes nothing. -/
def register (registry : Registry) (subject heir : Address) : Registry :=
  if subject ∈ registry.subjects then registry else registry ++ [⟨subject, heir⟩]

def update : Query → Registry → Registry
  | .destroy subject heir, registry => registry.register subject heir
  | _, registry => registry

variable (store : Store)

/-- The money of the destroyed accounts whose heir is the account. -/
def inherited (registry : Registry) (address : Address) : ℤ :=
  ((registry.filter fun bequest => bequest.heir = address).map
    fun bequest => store.funds bequest.subject).sum

/-- The money that the account loses by its own destruction. -/
def forfeited (registry : Registry) (address : Address) : ℤ :=
  if address ∈ registry.subjects then store.funds address else 0

def movement (registry : Registry) (address : Address) : ℤ :=
  registry.inherited store address - registry.forfeited store address

/-- The money of all destroyed accounts. -/
def estates (registry : Registry) : ℤ := (registry.subjects.map store.funds).sum

@[simp] lemma subjects_nil : subjects [] = [] := rfl

@[simp] lemma subjects_cons (bequest : Bequest) (registry : Registry) :
    subjects (bequest :: registry) = bequest.subject :: subjects registry := rfl

@[simp] lemma subjects_append (older newer : Registry) :
    subjects (older ++ newer) = older.subjects ++ newer.subjects :=
  List.map_append

lemma nodup_register {registry : Registry} (distinct : registry.subjects.Nodup)
    (subject heir : Address) : (registry.register subject heir).subjects.Nodup := by
  rw [register]
  split_ifs with known
  · exact distinct
  · rw [subjects_append, List.nodup_append]
    refine ⟨distinct, by simp, ?_⟩
    intro address member other last same
    rw [subjects_cons, subjects_nil, List.mem_singleton] at last
    change other = subject at last
    rw [same, last] at member
    exact known member

/-! ## Sums of movements -/

@[simp] lemma inherited_nil (address : Address) : inherited store [] address = 0 := rfl

lemma inherited_cons (bequest : Bequest) (registry : Registry) (address : Address) :
    inherited store (bequest :: registry) address
      = (if bequest.heir = address then store.funds bequest.subject else 0)
        + registry.inherited store address := by
  rw [inherited, inherited, List.filter_cons]
  by_cases heir : bequest.heir = address <;> simp [heir]

lemma inherited_append (older newer : Registry) (address : Address) :
    inherited store (older ++ newer) address
      = older.inherited store address + newer.inherited store address := by
  simp only [inherited, List.filter_append, List.map_append, List.sum_append]

/-- **Movements add up,** since no account is destroyed twice. -/
lemma movement_append {older newer : Registry} (distinct : (older ++ newer).subjects.Nodup)
    (address : Address) :
    movement store (older ++ newer) address
      = older.movement store address + newer.movement store address := by
  rw [subjects_append, List.nodup_append] at distinct
  have apart : address ∈ older.subjects → address ∉ newer.subjects :=
    fun old new => distinct.2.2 address old address new rfl
  simp only [movement, inherited_append, forfeited, subjects_append, List.mem_append]
  by_cases old : address ∈ older.subjects
  · simp only [old, apart old, true_or, if_true, if_false]
    ring
  · simp only [old, false_or, if_false]
    ring

lemma movement_singleton (subject heir address : Address) :
    movement store [⟨subject, heir⟩] address
      = (if heir = address then store.funds subject else 0)
        - if subject = address then store.funds subject else 0 := by
  rw [movement, inherited_cons, inherited_nil, add_zero, forfeited]
  by_cases same : subject = address
  · simp [same]
  · have other : address ≠ subject := fun h => same h.symm
    simp [same, other]

lemma sum_inherited (registry : Registry) :
    ∑ address, registry.inherited store address = registry.estates store := by
  induction registry with
  | nil => simp [estates]
  | cons bequest registry ih =>
      simp only [inherited_cons, Finset.sum_add_distrib, ih, Finset.sum_ite_eq,
        Finset.mem_univ, if_true, estates, subjects_cons, List.map_cons, List.sum_cons]

lemma sum_forfeited {registry : Registry} (distinct : registry.subjects.Nodup) :
    ∑ address, registry.forfeited store address = registry.estates store := by
  rw [estates, ← List.sum_toFinset _ distinct]
  simp only [forfeited, ← List.mem_toFinset, Finset.sum_ite_mem, Finset.univ_inter]

/-- **What is inherited was forfeited:** all movements together are nothing. -/
theorem sum_movement {registry : Registry} (distinct : registry.subjects.Nodup) :
    ∑ address, registry.movement store address = 0 := by
  simp only [movement, Finset.sum_sub_distrib, sum_inherited, sum_forfeited store distinct,
    sub_self]

/-! ## Bounds -/

lemma inherited_nonneg (registry : Registry) (address : Address) :
    0 ≤ registry.inherited store address := by
  refine List.sum_nonneg ?_
  intro amount member
  obtain ⟨bequest, -, rfl⟩ := List.mem_map.1 member
  exact store.funds_nonneg _

lemma inherited_le_estates (registry : Registry) (address : Address) :
    registry.inherited store address ≤ registry.estates store := by
  induction registry with
  | nil => simp [estates]
  | cons bequest registry ih =>
      have positive := store.funds_nonneg bequest.subject
      rw [inherited_cons, estates, subjects_cons, List.map_cons, List.sum_cons]
      rw [estates] at ih
      split_ifs <;> omega

lemma estates_le_total {registry : Registry} (distinct : registry.subjects.Nodup) :
    registry.estates store ≤ store.total :=
  store.sum_funds_le distinct

/-- An account that is not destroyed has its money apart from all that is inherited. -/
lemma funds_add_inherited_le {registry : Registry} (distinct : registry.subjects.Nodup)
    {subject : Address} (spared : subject ∉ registry.subjects) (address : Address) :
    store.funds subject + registry.inherited store address ≤ store.total := by
  have share := store.sum_funds_le (List.nodup_cons.2 ⟨spared, distinct⟩)
  rw [List.map_cons, List.sum_cons] at share
  have bound : registry.inherited store address ≤ (registry.subjects.map store.funds).sum :=
    inherited_le_estates store registry address
  omega

lemma forfeited_nonneg (registry : Registry) (address : Address) :
    0 ≤ registry.forfeited store address := by
  have positive := store.funds_nonneg address
  rw [forfeited]
  split_ifs <;> omega

lemma forfeited_le (registry : Registry) (address : Address) :
    registry.forfeited store address ≤ store.funds address := by
  have positive := store.funds_nonneg address
  rw [forfeited]
  split_ifs <;> omega

lemma funds_le_total (address : Address) : store.funds address ≤ store.total := by
  have share := store.sum_funds_le (List.nodup_singleton address)
  simpa using share

/-- **Every balance stays between zero and the total.** -/
theorem movement_bounds {registry : Registry} (distinct : registry.subjects.Nodup)
    (address : Address) :
    0 ≤ store.funds address + registry.movement store address ∧
      store.funds address + registry.movement store address ≤ store.total := by
  have gain := registry.inherited_nonneg store address
  have loss := registry.forfeited_le store address
  constructor
  · rw [movement]
    omega
  · by_cases destroyed : address ∈ registry.subjects
    · have estates := (registry.inherited_le_estates store address).trans
        (estates_le_total store distinct)
      rw [movement, forfeited, if_pos destroyed]
      omega
    · have apart := funds_add_inherited_le store distinct destroyed address
      rw [movement, forfeited, if_neg destroyed]
      omega

/-- A change of a balance is no larger than the total, in either direction. -/
lemma abs_movement_le {registry : Registry} (distinct : registry.subjects.Nodup)
    (address : Address) :
    -store.total ≤ registry.movement store address ∧
      registry.movement store address ≤ store.total := by
  have bounds := movement_bounds store distinct address
  have share := funds_le_total store address
  have positive := store.funds_nonneg address
  omega

end Registry

end ContractHost
