import ContractHost.Proofs.Disassembly

/-!
# The course of a run

A run of the machine goes round a loop, once for each instruction, from the front of the code to
its back.  With a host that answers, it takes a definite course: it comes to some places of the
code, each with some gas left, and is left at one of them.  Every turn of the loop takes one unit
of gas, whatever the instruction does and whatever is called on the way, and there are no jumps, so
that no turn comes to a place where one was before.

* `course` — the loop with a host, turn by turn.  It has no limit: it ends because the places go up.
* **`run_eq_course`** — it is what the machine does.
* `Course.Forward` and **`course_forward`** — the places of the turns.
* `Course.Accounted` and **`course_accounted`** — the gas of the turns, and what is given back.
* `courseOn` and **`start_eq_courseOn`** — a whole run.
-/

namespace ContractHost.Machine

variable {ω : Type}

/-! ## The loop with a host -/

/-- What an instruction comes to with a host: the state to go on from or the result that ends the
run, and the world after it. -/
def Step.perform (host : Handler Unit ω) : Step → ω → Except Result State × ω
  | next state, world => (.ok state, world)
  | halt result, world => (.error result, world)
  | ask query after, world =>
    let (answer, world) := host.answer world query
    (after answer).perform host world
  | call message after, world =>
    let (reply, _, world) := host.call () world message
    (after reply).perform host world

/-- One turn of the loop: where it begins, and how much gas is left there. -/
structure Turn where
  place : Nat
  gas : Int64
deriving DecidableEq

/-- There is gas for an instruction. -/
def Turn.Paid (turn : Turn) : Prop := 0 < turn.gas

instance (turn : Turn) : Decidable turn.Paid := inferInstanceAs (Decidable (_ < _))

/-- How a run went. -/
structure Course (ω : Type) where
  turns : List Turn
  /-- Where the loop is left. -/
  place : Nat
  /-- The last instruction ended the run or failed. -/
  halted : Bool
  result : Result
  world : ω

namespace Course

/-- The number of instructions that were started with gas available. -/
def started (course : Course ω) : Nat := course.turns.countP fun turn => turn.Paid

def after (turn : Turn) (course : Course ω) : Course ω :=
  { course with turns := turn :: course.turns }

end Course

/-- The course of the loop from a place on. -/
def course (setting : Setting) (code : Array UInt8) (host : Handler Unit ω) (place : Nat)
    (state : State) (world : ω) : Course ω :=
  if inside : place < code.size then
    if state.gasLeft ≤ 0 then
      ⟨[⟨place, state.gasLeft⟩], place, false, Result.failure .outOfGas, world⟩
    else
      match (execute setting { state with gasLeft := state.gasLeft - 1 }
        (Instruction.fetch code place inside).1).perform host world with
      | (.ok next, world) =>
        (course setting code host (place + (Instruction.fetch code place inside).2) next
          world).after ⟨place, state.gasLeft⟩
      | (.error result, world) => ⟨[⟨place, state.gasLeft⟩], place, true, result, world⟩
  else ⟨[], place, false, Result.success state.gasLeft, world⟩
termination_by code.size - place
decreasing_by
  have forward := (Instruction.fetch_width code place inside).1
  omega

section Turns

variable {setting : Setting} {code : Array UInt8} {host : Handler Unit ω} {place : ℕ}
  {state : State} {world world' : ω}

lemma course_over (ended : ¬ place < code.size) :
    course setting code host place state world
      = ⟨[], place, false, Result.success state.gasLeft, world⟩ := by
  rw [course, dif_neg ended]

lemma course_spent (inside : place < code.size) (spent : state.gasLeft ≤ 0) :
    course setting code host place state world
      = ⟨[⟨place, state.gasLeft⟩], place, false, Result.failure .outOfGas, world⟩ := by
  rw [course, dif_pos inside, if_pos spent]

lemma course_next (inside : place < code.size) (paid : ¬ state.gasLeft ≤ 0) {next : State}
    (performed : (execute setting { state with gasLeft := state.gasLeft - 1 }
      (Instruction.fetch code place inside).1).perform host world = (.ok next, world')) :
    course setting code host place state world
      = (course setting code host (place + (Instruction.fetch code place inside).2) next
          world').after ⟨place, state.gasLeft⟩ := by
  rw [course, dif_pos inside, if_neg paid, performed]

lemma course_halted (inside : place < code.size) (paid : ¬ state.gasLeft ≤ 0) {result : Result}
    (performed : (execute setting { state with gasLeft := state.gasLeft - 1 }
      (Instruction.fetch code place inside).1).perform host world = (.error result, world')) :
    course setting code host place state world
      = ⟨[⟨place, state.gasLeft⟩], place, true, result, world'⟩ := by
  rw [course, dif_pos inside, if_neg paid, performed]

end Turns

/-! ## What an instruction comes to -/

/-- What an instruction comes to decides how the rest of the run goes. -/
lemma Step.run_andThen (host : Handler Unit ω) (step : Step) (rest : State → Program Unit)
    (world : ω) :
    (step.andThen rest).run host world
      = match step.perform host world with
        | (.ok state, world) => (rest state).run host world
        | (.error result, world) => (.finished result.encode, (), world) := by
  induction step generalizing world with
  | next state => rfl
  | halt result => rfl
  | ask query after ih => exact ih _ _
  | call message after ih => exact ih _ _

/-- How an instruction may end a run that it leaves with this gas. -/
inductive Settles (gas : Int64) : Result → Prop
  | success : Settles gas (Result.success gas)
  | revert : Settles gas (Result.revert gas)
  | failure {status : Status} (failed : status.Failed) : Settles gas (Result.failure status)

/-- What an instruction comes to with this gas. -/
def CarriesOn (gas : Int64) : Except Result State → Prop
  | .ok next => next.gasLeft = gas
  | .error result => Settles gas result

/-- It does not matter to the gas what is asked and called on the way. -/
lemma Step.Carries.perform {gas gas' : Int64} {step step' : Step}
    (carries : Carries gas gas' step step') (host : Handler Unit ω) (world : ω) :
    CarriesOn gas (step.perform host world).1 := by
  induction carries generalizing world with
  | next state => exact rfl
  | success => exact .success
  | revert => exact .revert
  | failure failed => exact .failure failed
  | ask query _ ih => exact ih _ _
  | call message _ ih => exact ih _ _

/-- An instruction goes on with the gas that it was left, or ends the run. -/
lemma execute_perform {setting : Setting} {charged : State} {instruction : Instruction}
    {host : Handler Unit ω} {world world' : ω} {outcome : Except Result State}
    (performed : (execute setting charged instruction).perform host world = (outcome, world')) :
    CarriesOn charged.gasLeft outcome := by
  have carries := execute_carries setting charged.gasLeft charged.gasLeft charged instruction
  have came : ((execute setting charged instruction).perform host world).1 = outcome :=
    congrArg Prod.fst performed
  rw [← came]
  exact carries.perform host world

/-- Where there is gas, a unit of it can be taken away. -/
lemma charged_of_funded {gas : Int64} (unspent : ¬ gas ≤ 0) :
    0 < gas ∧ (gas - 1).toInt = gas.toInt - 1 ∧ 0 ≤ gas - 1 := by
  have paid : 0 < gas := Int64.not_le.1 unspent
  have left := Int64.toInt_sub_one (Int64.ne_minValue (Int64.le_of_lt paid))
  have some := Int64.lt_iff_toInt_lt.1 paid
  rw [Int64.toInt_zero] at some
  refine ⟨paid, left, Int64.le_iff_toInt_le.2 ?_⟩
  rw [left, Int64.toInt_zero]
  omega

/-- Where there is gas for the next instruction, it is executed. -/
lemma run_next (setting : Setting) (limit : ℕ) {code : Array UInt8} {place : ℕ}
    (inside : place < code.size) (state : State) (unspent : ¬ state.gasLeft ≤ 0) :
    run setting code (limit + 1) place state
      = (execute setting { state with gasLeft := state.gasLeft - 1 }
          (Instruction.fetch code place inside).1).andThen fun next =>
        run setting code limit (place + (Instruction.fetch code place inside).2) next := by
  obtain ⟨paid, -, rest⟩ := charged_of_funded unspent
  rw [run, dif_pos inside, if_neg (Int64.ne_minValue (Int64.le_of_lt paid)),
    if_neg (Int64.not_lt.2 rest)]

/-- **A run of the machine takes its course,** if its limit leaves room for the rest of the code. -/
theorem run_eq_course (setting : Setting) (code : Array UInt8) (host : Handler Unit ω)
    (limit place : ℕ) (state : State) (world : ω) (fit : code.size ≤ place + limit)
    (least : state.gasLeft ≠ Int64.minValue) :
    (run setting code limit place state).run host world
      = (.finished (course setting code host place state world).result.encode, (),
        (course setting code host place state world).world) := by
  induction limit generalizing place state world with
  | zero =>
      have ended : ¬ place < code.size := not_lt.2 fit
      rw [course_over ended]
      rfl
  | succ limit ih =>
      by_cases inside : place < code.size
      · by_cases spent : state.gasLeft ≤ 0
        · rw [run, dif_pos inside, if_neg least, if_pos ((charged_neg_iff least).2 spent),
            course_spent inside spent]
          rfl
        · obtain ⟨-, -, rest⟩ := charged_of_funded spent
          have forward := (Instruction.fetch_width code place inside).1
          rw [run_next setting limit inside state spent, Step.run_andThen]
          rcases performed : (execute setting { state with gasLeft := state.gasLeft - 1 }
            (Instruction.fetch code place inside).1).perform host world with ⟨result | next, world'⟩
          · rw [course_halted inside spent performed]
          · have charged : next.gasLeft = state.gasLeft - 1 := execute_perform performed
            rw [course_next inside spent performed]
            exact ih _ next world' (by omega) (charged ▸ Int64.ne_minValue rest)
      · rw [run, dif_neg inside, course_over inside]
        rfl

/-! ## Places -/

namespace Course

variable {course : Course ω}

/-- The turns begin at places that go up, all of them in the code. -/
structure Forward (first size : ℕ) (course : Course ω) : Prop where
  ascending : (course.turns.map Turn.place).Pairwise (· < ·)
  inside : ∀ turn ∈ course.turns, first ≤ turn.place ∧ turn.place < size
  length_le : course.turns.length ≤ size - first

lemma Forward.after {place next size : ℕ} (forward : course.Forward next size) (gas : Int64)
    (there : place < size) (further : place < next) :
    (course.after ⟨place, gas⟩).Forward place size where
  ascending := by
    refine List.pairwise_cons.2 ⟨?_, forward.ascending⟩
    intro later listed
    obtain ⟨turn, member, rfl⟩ := List.mem_map.1 listed
    exact further.trans_le (forward.inside turn member).1
  inside := by
    refine List.forall_mem_cons.2 ⟨⟨le_rfl, there⟩, ?_⟩
    intro later member
    obtain ⟨behind, inside⟩ := forward.inside later member
    exact ⟨further.le.trans behind, inside⟩
  length_le := by
    have length := forward.length_le
    change course.turns.length + 1 ≤ size - place
    omega

/-- A single turn, at a place in the code. -/
lemma Forward.single {place size : ℕ} (there : place < size) (gas : Int64) (halted : Bool)
    (result : Result) (world : ω) :
    Forward place size ⟨[⟨place, gas⟩], place, halted, result, world⟩ where
  ascending := List.pairwise_singleton _ _
  inside := List.forall_mem_singleton.2 ⟨le_rfl, there⟩
  length_le := by
    change 1 ≤ size - place
    omega

end Course

/-- **The places go up from turn to turn,** so that there are no more turns than bytes of code. -/
theorem course_forward (setting : Setting) (code : Array UInt8) (host : Handler Unit ω) (place : ℕ)
    (state : State) (world : ω) :
    (course setting code host place state world).Forward place code.size := by
  induction place, state, world using course.induct setting code host with
  | case1 place state world inside spent =>
      rw [course_spent inside spent]
      exact .single inside _ _ _ _
  | case2 place state world inside paid next world' performed ih =>
      rw [course_next inside paid performed]
      have forward := (Instruction.fetch_width code place inside).1
      exact ih.after state.gasLeft inside (Nat.lt_add_of_pos_right forward)
  | case3 place state world inside paid result world' performed =>
      rw [course_halted inside paid performed]
      exact .single inside _ _ _ _
  | case4 place state world ended =>
      rw [course_over ended]
      exact ⟨.nil, List.forall_mem_nil _, Nat.zero_le _⟩

/-! ## Accounts -/

namespace Course

variable {course : Course ω}

/-- The gas of a run that began with this gas, over code of this size. -/
structure Accounted (gas : Int64) (size : ℕ) (course : Course ω) : Prop where
  /-- Every turn takes one unit of gas from the next, whatever it called. -/
  charged : ∀ (i : ℕ) (turn : Turn), course.turns[i]? = some turn → turn.gas.toInt = gas.toInt - i
  started_le : course.started ≤ gas.toInt
  kept : course.result.status = .success ∨ course.result.status = .revert →
    course.result.gasLeft.toInt = gas.toInt - course.started
  lost : course.result.status ≠ .success → course.result.status ≠ .revert →
    course.result.gasLeft = 0
  outOfGas_iff : course.result.status = .outOfGas ↔
    course.started = gas.toInt ∧ course.halted = false ∧ course.place < size

lemma started_after (turn : Turn) (paid : turn.Paid) (course : Course ω) :
    (course.after turn).started = course.started + 1 :=
  List.countP_cons_of_pos (decide_eq_true paid)

lemma Accounted.after {place size : ℕ} {gas : Int64} (paid : 0 < gas)
    (left : (gas - 1).toInt = gas.toInt - 1)
    (accounted : course.Accounted (gas - 1) size) :
    (course.after ⟨place, gas⟩).Accounted gas size := by
  have started := started_after ⟨place, gas⟩ paid course
  refine ⟨?_, ?_, ?_, accounted.lost, ?_⟩
  · rintro (_ | i) turn found
    · obtain rfl := Option.some.inj found
      exact (sub_zero _).symm
    · have later := accounted.charged i turn found
      push_cast
      omega
  · have bound := accounted.started_le
    omega
  · intro ended
    have given := accounted.kept ended
    change course.result.gasLeft.toInt = _
    omega
  · refine accounted.outOfGas_iff.trans ?_
    rw [started, left]
    refine and_congr_left fun _ => ?_
    omega

/-- The first turn begins with all the gas. -/
lemma charged_single {place : ℕ} {gas : Int64} (i : ℕ) (turn : Turn)
    (found : ([⟨place, gas⟩] : List Turn)[i]? = some turn) : turn.gas.toInt = gas.toInt - i := by
  cases i with
  | zero =>
      obtain rfl := Option.some.inj found
      exact (sub_zero _).symm
  | succ i => cases found

/-- The code is over. -/
lemma Accounted.over {gas : Int64} (funded : 0 ≤ gas) {place size : ℕ} (ended : ¬ place < size)
    (world : ω) : Accounted gas size ⟨[], place, false, Result.success gas, world⟩ where
  charged := by
    rintro i turn ⟨⟩
  started_le := Int64.le_iff_toInt_le.1 funded
  kept _ := (sub_zero _).symm
  lost failed := absurd rfl failed
  outOfGas_iff := ⟨by rintro ⟨⟩, fun left => absurd left.2.2 ended⟩

/-- There is no gas for the code that is left. -/
lemma Accounted.spent {place size : ℕ} (inside : place < size) (world : ω) :
    Accounted 0 size ⟨[⟨place, 0⟩], place, false, Result.failure .outOfGas, world⟩ where
  charged := charged_single
  started_le := le_rfl
  kept := by rintro (⟨⟨⟩⟩ | ⟨⟨⟩⟩)
  lost _ _ := rfl
  outOfGas_iff := ⟨fun _ => ⟨rfl, rfl, inside⟩, fun _ => rfl⟩

/-- The instruction that was paid for ended the run. -/
lemma Accounted.halted {gas : Int64} (paid : 0 < gas) (left : (gas - 1).toInt = gas.toInt - 1)
    {result : Result} (settles : Settles (gas - 1) result) {place size : ℕ} (world : ω) :
    Accounted gas size ⟨[⟨place, gas⟩], place, true, result, world⟩ := by
  have started : started ⟨[⟨place, gas⟩], place, true, result, world⟩ = 1 :=
    List.countP_cons_of_pos (decide_eq_true paid)
  have some : 0 < gas.toInt := Int64.lt_iff_toInt_lt.1 paid
  refine ⟨charged_single, by omega, ?_, ?_, ?_⟩
  · cases settles with
    | success | revert =>
        intro _
        rw [started]
        exact left
    | failure failed => exact fun ended => absurd ended (not_or.2 ⟨failed.1, failed.2.1⟩)
  · cases settles with
    | success => exact fun ended => absurd rfl ended
    | revert => exact fun _ ended => absurd rfl ended
    | failure failed => exact fun _ _ => rfl
  · refine ⟨fun ended => ?_, by rintro ⟨-, ⟨⟩, -⟩⟩
    cases settles with
    | success | revert => cases ended
    | failure failed => exact absurd ended failed.2.2

end Course

/-- **The accounts of a run are in order,** whatever its instructions do and its host answers. -/
theorem course_accounted (setting : Setting) (code : Array UInt8) (host : Handler Unit ω)
    (place : ℕ) (state : State) (world : ω) (funded : 0 ≤ state.gasLeft) :
    (course setting code host place state world).Accounted state.gasLeft code.size := by
  induction place, state, world using course.induct setting code host with
  | case1 place state world inside spent =>
      rw [course_spent inside spent, Int64.le_antisymm spent funded]
      exact .spent inside world
  | case2 place state world inside unspent next world' performed ih =>
      obtain ⟨paid, left, rest⟩ := charged_of_funded unspent
      rw [course_next inside unspent performed]
      have charged : next.gasLeft = state.gasLeft - 1 := execute_perform performed
      rw [charged] at ih
      exact (ih rest).after paid left
  | case3 place state world inside unspent result world' performed =>
      obtain ⟨paid, left, -⟩ := charged_of_funded unspent
      rw [course_halted inside unspent performed]
      exact .halted paid left (execute_perform performed) world'
  | case4 place state world ended =>
      rw [course_over ended]
      exact .over funded ended world

/-! ## Whole runs -/

section Whole

variable (revision : Revision) (message : CallMessage) (input code : Bytes) (host : Handler Unit ω)
  (world : ω)

/-- The course of a run on a message with its input, from the front of the code on. -/
def courseOn : Course ω :=
  course { revision, message, input } code.toArray host 0 { gasLeft := message.gas } world

lemma courseOn_forward :
    (courseOn revision message input code host world).Forward 0 code.length := by
  have forward := course_forward { revision, message, input } code.toArray host 0
    { gasLeft := message.gas } world
  rwa [List.size_toArray] at forward

lemma courseOn_accounted (funded : 0 ≤ message.gas) :
    (courseOn revision message input code host world).Accounted message.gas code.length := by
  have accounted := course_accounted { revision, message, input } code.toArray host 0
    { gasLeft := message.gas } world funded
  rwa [List.size_toArray] at accounted

/-- There are no more instructions to start than bytes of code. -/
lemma courseOn_started_le :
    (courseOn revision message input code host world).started ≤ code.length :=
  List.countP_le_length.trans (courseOn_forward revision message input code host world).length_le

variable {revision message input code host world}

/-- **What a machine does that was started** on a packed message. -/
theorem start_eq_courseOn {handed : Bytes}
    (readable : CallMessage.unpack handed = .ok (message, input))
    (least : message.gas ≠ Int64.minValue) :
    (start revision handed code).run host world
      = (.finished (courseOn revision message input code host world).result.encode, (),
        (courseOn revision message input code host world).world) := by
  rw [start, readable]
  refine run_eq_course _ _ host _ 0 _ world ?_ least
  rw [List.size_toArray, Nat.zero_add]

end Whole

end ContractHost.Machine
