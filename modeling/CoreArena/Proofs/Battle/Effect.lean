import CoreArena.Proofs.Battle.Access
import CoreArena.Proofs.Instruction.Encoding
import Mathlib.Logic.Function.Iterate

/-! # The effect of an instruction

`View.effect` is the instruction table: what an instruction does to the values of the cells and
where it sends the pointer, read off the memory before it. In an arena without limits an execution
has that effect and no other: `execute_gives`. -/

namespace CoreArena

/-! ## The table -/

/-- The values of a ring of cells, seen from one of them. -/
structure View where
  size : Nat
  cells : Nat → Word
  position : Nat

/-- What an instruction does: the values that it leaves, and the cell to go on at unless it ends the
pointer. -/
structure Effect where
  cells : Nat → Word
  next : Option Nat

namespace View

def address (v : View) (distance : Int) : Nat :=
  ((v.position + distance) % v.size).toNat

/-- The value that an operand stands for: a number is looked up so many times, each time in the cell
at that distance. -/
def operand (v : View) (o : Operand) : Int :=
  (fun distance => (v.cells (v.address distance)).toInt)^[o.depth] o.value

def store (v : View) (distance : Int) (w : Word) : Nat → Word :=
  Function.update v.cells (v.address distance) w

/-- The instruction table. Arithmetic is that of 32-bit numbers, comparisons are signed. -/
def effect (v : View) (i : Instruction) : Effect :=
  let a := v.operand i.firstOrZero
  let b := v.operand i.secondOrZero
  let source := v.cells (v.address a)
  let target := v.cells (v.address b)
  match i.operation with
  | .data | .invalid => ⟨v.cells, none⟩
  | .noop => ⟨v.cells, v.address 1⟩
  | .jump => ⟨v.cells, v.address a⟩
  | .skipIfEqual => ⟨v.cells, v.address (if a = b then 2 else 1)⟩
  | .skipIfGreater => ⟨v.cells, v.address (if a > b then 2 else 1)⟩
  | .skipIfLower => ⟨v.cells, v.address (if a < b then 2 else 1)⟩
  | .write => ⟨v.store b (.ofInt a), v.address 1⟩
  | .add => ⟨v.store b (.ofInt (target.toInt + a)), v.address 1⟩
  | .subtract => ⟨v.store b (.ofInt (target.toInt - a)), v.address 1⟩
  | .multiply => ⟨v.store b (.ofInt (target.toInt * a)), v.address 1⟩
  | .copy => ⟨v.store b source, v.address 1⟩
  | .move =>
    ⟨if v.address a = v.address b then v.store b source
      else Function.update (v.store b source) (v.address a) 0, v.address 1⟩

theorem address_lt {v : View} (h : 0 < v.size) (distance : Int) : v.address distance < v.size :=
  Arena.toNat_emod_lt h _

end View

/-! ## Operands of words -/

def Operand.Fits (o : Operand) : Prop :=
  InRange o.value

instance (o : Operand) : Decidable o.Fits :=
  inferInstanceAs (Decidable (Operand.InRange o.value))

theorem Operand.fits_ofField (n : Int) : (Operand.ofField n).Fits :=
  inRange_signExtend n

theorem Instruction.fits_decode (w : Word) :
    (decode w).firstOrZero.Fits ∧ (decode w).secondOrZero.Fits := by
  have hzero : Operand.zero.Fits := by decide
  unfold decode
  split
  · rename_i hrange
    exact ⟨hzero, hrange⟩
  · dsimp only
    split
    · exact ⟨hzero, Operand.fits_ofField _⟩
    · exact ⟨hzero, hzero⟩
    · exact ⟨Operand.fits_ofField _, hzero⟩
    · exact ⟨Operand.fits_ofField _, Operand.fits_ofField _⟩

/-- What an operand stands for is the value of a word. -/
theorem View.toInt_operand (v : View) {o : Operand} (h : o.Fits) :
    (Int32.ofInt (v.operand o)).toInt = v.operand o := by
  unfold operand
  cases o.depth with
  | zero =>
      obtain ⟨hlow, hhigh⟩ := h
      unfold Operand.minValue at hlow
      unfold Operand.maxValue at hhigh
      refine Int32.toInt_ofInt_of_le ?_ ?_
      all_goals
        rw [Function.iterate_zero, id]
        omega
  | succ depth => rw [Function.iterate_succ_apply', Int32.ofInt_toInt]

/-! ## Arenas without limits -/

/-- An arena without limits holds some values. -/
structure Arena.Holds (a : Arena) (size : Nat) (cells : Nat → Word) : Prop where
  size_eq : a.size = size
  maxWrites_eq : a.maxWrites = 0
  maxReads_eq : a.maxReads = 0
  value_eq : ∀ i, (a.cell i).value = cells i

namespace Arena.Holds

variable {a : Arena} {size : Nat} {cells : Nat → Word}

theorem isDead_eq_false (h : a.Holds size cells) (i : Nat) : a.isDead i = false :=
  isDead_of_noLimits h.maxWrites_eq h.maxReads_eq i

theorem countRead (h : a.Holds size cells) (i : Nat) :
    (a.update i Cell.countRead).Holds size cells := by
  refine ⟨(a.size_update i _).trans h.size_eq, h.maxWrites_eq, h.maxReads_eq, ?_⟩
  intro j
  rw [← h.value_eq j, cell_update]
  split <;> rfl

theorem overwrite (h : a.Holds size cells) {i : Nat} (hi : i < size) (w : Word) (owner : Nat) :
    (a.update i (Cell.overwrite w owner)).Holds size (Function.update cells i w) := by
  refine ⟨(a.size_update i _).trans h.size_eq, h.maxWrites_eq, h.maxReads_eq, ?_⟩
  intro j
  by_cases hj : j = i
  · subst hj
    rw [Function.update_self, cell_update_self (h.size_eq ▸ hi)]
    rfl
  · rw [Function.update_of_ne hj, cell_update_of_ne a (Ne.symm hj)]
    exact h.value_eq j

end Arena.Holds

namespace Act

variable {α β : Type} {size : Nat} {cells cells' cells'' : Nat → Word}

/-- Where the values are those of `cells`, a part of an execution has a result and leaves `cells'`.
-/
def Gives (act : Act α) (size : Nat) (cells cells' : Nat → Word) (result : Except Reason α) :
    Prop :=
  ∀ t, t.arena.Holds size cells →
    (act.eval t).1 = result ∧ (act.eval t).2.arena.Holds size cells'

theorem gives_pure (v : α) : Gives (pure v) size cells cells (.ok v) :=
  fun _ h => ⟨rfl, h⟩

theorem gives_throw (reason : Reason) :
    Gives (throw reason : Act α) size cells cells (.error reason) :=
  fun _ h => ⟨rfl, h⟩

theorem gives_report (e : Event) : Gives (report e) size cells cells (.ok ()) :=
  fun _ h => ⟨rfl, h⟩

theorem gives_bind {act : Act α} {f : α → Act β} {v : α} {result : Except Reason β}
    (hact : Gives act size cells cells' (.ok v)) (hf : Gives (f v) size cells' cells'' result) :
    Gives (act >>= f) size cells cells'' result := by
  intro t ht
  obtain ⟨hresult, harena⟩ := hact t ht
  rw [eval_bind]
  cases h : act.eval t with
  | mk first u =>
      rw [h] at hresult harena
      cases hresult
      exact hf u harena

theorem gives_read (program : Nat) (i : Nat) (reason : Reason) :
    Gives (read program i reason) size cells cells (.ok (cells i)) := by
  intro t ht
  rw [eval_read, Arena.read?, ht.isDead_eq_false i, ← ht.value_eq i]
  exact ⟨rfl, ht.countRead i⟩

theorem gives_write (x : Executor) {i : Nat} (hi : i < size) (w : Word) :
    Gives (write x i w) size cells (Function.update cells i w) (.ok ()) := by
  intro t ht
  rw [eval_write, Arena.write?, ht.isDead_eq_false i]
  exact ⟨rfl, ht.overwrite hi w x.writer⟩

/-! ## Operands -/

variable {v : View} {x : Executor}

theorem gives_reach (hx : x.position = v.position) (distance : Int) :
    Gives (reach x distance) v.size cells cells (.ok (v.address distance)) := by
  intro t ht
  rw [eval_reach, Arena.offset, Arena.wrap, ht.size_eq, hx]
  exact ⟨rfl, ht⟩

theorem gives_follow (hx : x.position = v.position) (depth : Nat) {n : Int}
    (hn : (Int32.ofInt n).toInt = n) :
    Gives (follow x depth (.ofInt n)) v.size v.cells v.cells
      (.ok (.ofInt ((fun distance => (v.cells (v.address distance)).toInt)^[depth] n))) := by
  induction depth generalizing n with
  | zero => exact gives_pure _
  | succ depth ih =>
      -- A read changes a counter only, so the next lookup sees the same values.
      rw [Function.iterate_succ_apply, follow, hn]
      refine gives_bind (gives_reach hx n) (gives_bind (gives_read _ _ _) ?_)
      have hrest := ih (n := (v.cells (v.address n)).toInt)
      rw [Int32.ofInt_toInt] at hrest
      exact hrest rfl

theorem gives_resolve (hx : x.position = v.position) {o : Operand} (ho : o.Fits) :
    Gives (resolve x o) v.size v.cells v.cells (.ok (.ofInt (v.operand o))) :=
  gives_follow hx o.depth (View.toInt_operand v (o := ⟨0, o.value⟩) ho)

theorem gives_target (hx : x.position = v.position) {o : Operand} (ho : o.Fits) :
    Gives (target x o) v.size v.cells v.cells (.ok (v.address (v.operand o))) := by
  refine gives_bind (gives_resolve hx ho) ?_
  rw [v.toInt_operand ho]
  exact gives_reach hx _

/-! ## Instructions -/

/-- The result of an execution that goes on at a cell, or ends the pointer. -/
def outcome : Option Nat → Except Reason Nat
  | some next => .ok next
  | none => .error .notExecutable

theorem eq_some_of_ok_eq_outcome {o : Option Nat} {next : Nat} (h : .ok next = outcome o) :
    o = some next := by
  cases o with
  | none => cases h
  | some next' =>
      cases h
      rfl

theorem eq_none_of_error_eq_outcome {o : Option Nat} {reason : Reason}
    (h : .error reason = outcome o) : o = none := by
  cases o with
  | none => rfl
  | some next => cases h

section Instructions

variable {i : Instruction} (hsize : 0 < v.size) (hx : x.position = v.position)
  (hfirst : i.firstOrZero.Fits) (hsecond : i.secondOrZero.Fits)

include hx hfirst hsecond

theorem gives_skip {holds : Word → Word → Bool} {P : Prop} [Decidable P]
    (hholds : holds (.ofInt (v.operand i.firstOrZero)) (.ofInt (v.operand i.secondOrZero)) ↔ P) :
    Gives (skip x i holds) v.size v.cells v.cells (.ok (v.address (if P then 2 else 1))) := by
  refine gives_bind (gives_resolve hx hfirst) (gives_bind (gives_resolve hx hsecond) ?_)
  have hdistance : Gives (reach x (if P then 2 else 1)) v.size v.cells v.cells
      (.ok (v.address (if P then 2 else 1))) := gives_reach hx _
  rw [← if_congr hholds rfl rfl] at hdistance ⊢
  exact hdistance

include hsize

theorem gives_combine (f : Word → Word → Word) :
    Gives (combine x i f) v.size v.cells
      (v.store (v.operand i.secondOrZero)
        (f (v.cells (v.address (v.operand i.secondOrZero))) (.ofInt (v.operand i.firstOrZero))))
      (.ok (v.address 1)) := by
  refine gives_bind (gives_resolve hx hfirst) (gives_bind (gives_target hx hsecond) ?_)
  refine gives_bind (gives_read _ _ _) ?_
  exact gives_bind (gives_write x (View.address_lt hsize _) _) (gives_reach hx 1)

theorem gives_transfer (clears : Bool) :
    Gives (transfer x i clears) v.size v.cells
      (let a := v.operand i.firstOrZero
       let b := v.operand i.secondOrZero
       let copied := v.store b (v.cells (v.address a))
       if clears && v.address a != v.address b then Function.update copied (v.address a) 0
       else copied)
      (.ok (v.address 1)) := by
  refine gives_bind (gives_target hx hfirst) (gives_bind (gives_target hx hsecond) ?_)
  refine gives_bind (gives_read _ _ _) ?_
  refine gives_bind (gives_write x (View.address_lt hsize _) _) ?_
  dsimp only
  split
  · exact gives_bind (gives_write x (View.address_lt hsize _) 0) (gives_reach hx 1)
  · exact gives_reach hx 1

theorem gives_perform :
    Gives (perform x i) v.size v.cells (v.effect i).cells (outcome (v.effect i).next) := by
  unfold perform View.effect
  cases i.operation with
  | data | invalid => exact gives_throw .notExecutable
  | noop => exact gives_reach hx 1
  | jump => exact gives_target hx hfirst
  | write =>
      refine gives_bind (gives_resolve hx hfirst) (gives_bind (gives_target hx hsecond) ?_)
      exact gives_bind (gives_write x (View.address_lt hsize _) _) (gives_reach hx 1)
  | add =>
      show Gives _ _ _ (v.store _ (Int32.ofInt (_ + _))) _
      rw [Int32.ofInt_add, Int32.ofInt_toInt]
      exact gives_combine hsize hx hfirst hsecond (· + ·)
  | subtract =>
      show Gives _ _ _ (v.store _ (Int32.ofInt (_ - _))) _
      rw [Int32.ofInt_sub, Int32.ofInt_toInt]
      exact gives_combine hsize hx hfirst hsecond (· - ·)
  | multiply =>
      show Gives _ _ _ (v.store _ (Int32.ofInt (_ * _))) _
      rw [Int32.ofInt_mul, Int32.ofInt_toInt]
      exact gives_combine hsize hx hfirst hsecond (· * ·)
  | copy => exact gives_transfer hsize hx hfirst hsecond false
  | move =>
      have htransfer := gives_transfer hsize hx hfirst hsecond true
      simp only [Bool.true_and, bne_iff_ne, ne_eq, ite_not] at htransfer
      exact htransfer
  | skipIfEqual =>
      refine gives_skip hx hfirst hsecond ?_
      rw [beq_iff_eq, ← Int32.toInt_inj, v.toInt_operand hfirst, v.toInt_operand hsecond]
  | skipIfGreater =>
      refine gives_skip hx hfirst hsecond ?_
      rw [decide_eq_true_eq, Int32.lt_iff_toInt_lt, v.toInt_operand hfirst,
        v.toInt_operand hsecond]
  | skipIfLower =>
      refine gives_skip hx hfirst hsecond ?_
      rw [decide_eq_true_eq, Int32.lt_iff_toInt_lt, v.toInt_operand hfirst,
        v.toInt_operand hsecond]

end Instructions

theorem gives_carryOut (rules : Rules) (program author : Nat) (hsize : 0 < v.size) (w : Word) :
    Gives (carryOut rules program v.position author w) v.size v.cells
      (v.effect (.decode w)).cells (outcome (v.effect (.decode w)).next) := by
  obtain ⟨hfirst, hsecond⟩ := Instruction.fits_decode w
  have hperform := gives_perform (v := v)
    (x := ⟨program, v.position, credited rules program author⟩) hsize rfl hfirst hsecond
  have hcycle : Gives (do
      report (.cycle program v.position)
      perform ⟨program, v.position, credited rules program author⟩ (.decode w)) v.size v.cells
        (v.effect (.decode w)).cells (outcome (v.effect (.decode w)).next) :=
    gives_bind (gives_report _) hperform
  unfold carryOut
  split
  · exact gives_bind (gives_report (.foreign program author)) hcycle
  · exact hcycle

/-- An execution performs the instruction of the cell that it is at. -/
theorem execute_gives (rules : Rules) (program : Nat) (hsize : 0 < v.size) :
    Gives (execute rules program v.position) v.size v.cells
      (v.effect (.decode (v.cells v.position))).cells
      (outcome (v.effect (.decode (v.cells v.position))).next) := by
  intro t ht
  rw [eval_execute, ht.isDead_eq_false v.position, ht.value_eq v.position]
  exact gives_carryOut rules program _ hsize _ _ (ht.countRead v.position)

end Act

end CoreArena
