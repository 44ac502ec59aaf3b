import CoreArena.Proofs.Shard.Scores

/-! # Refused submissions

A submission that is refused before the battle is asked leaves the shard as it was. If the battle
refuses the code, as there is none or too much of it, the number that the program would have got
has gone to the end of the queue, and the next program gets another one: `refusal_traceless_iff`. -/

namespace CoreArena

/-- Whether it is the battle that does not take the code. -/
def ShardError.isOfBattle : ShardError → Bool
  | install _ => true
  | _ => false

namespace Shard

variable {rules : Rules} {maxPrograms : Nat} {s : Shard}

/-! ## Replies -/

/-- What whoever makes a step gets for it. -/
inductive Answer where
  | submitted (result : Except ShardError Installed)
  | passed (change : Option Delta)
  | killed (found : Bool)
  | checked (offenders : List Nat)
  | filled (count : Nat)

def answer (s : Shard) : Step → Answer
  | .install name source filter address => .submitted (s.install name source filter address).result
  | .pass => .passed s.pass.result
  | .kill id => .killed (s.kill id).result
  | .checkNames names => .checked (s.checkNames names).result
  | .repopulate => .filled s.repopulate.result

/-- All that is seen of a step: its answer, what listeners are told, the events of the battle, and
the scores that it leaves. -/
structure Reply where
  answer : Answer
  notices : List Notice
  events : List Event
  scores : List Score

def reply (s : Shard) (step : Step) : Reply where
  answer := s.answer step
  notices := s.told step
  events := s.battle.history (s.deeds step)
  scores := (s.next step).scores

/-- All that is seen of a list of steps. -/
def replies (s : Shard) : List Step → List Reply
  | [] => []
  | step :: steps => s.reply step :: (s.next step).replies steps

/-! ## Refusals -/

/-- What can be left of a refused submission. -/
inductive Refused (s : Shard) (name source : String) : ShardError → Shard → Prop where
  | untouched {cause : ShardError} (hcause : cause.isOfBattle = false) :
      Refused s name source cause s
  | queued {assembled : Source.Assembled} {why : InstallError} {id : Nat} {freeIds : List Nat}
      (hfits : s.refuses? (Text.trimmed name) = none)
      (hassemble : Source.assemble source = .ok assembled)
      (hcode : assembled.words = [] ∨ s.battle.arena.size < assembled.words.length)
      (hfree : s.freeIds = id :: freeIds) :
      Refused s name source (.install why) { s with freeIds := freeIds ++ [id] }

/-- The battle takes all code but what is empty or larger than the arena. -/
theorem Books.exists_install (h : s.Books rules maxPrograms) {id : Nat} {code : List Word}
    (hid : id ∈ s.freeIds) (hcode : code ≠ []) (hroom : code.length ≤ s.battle.arena.size)
    (name : String) (address : Nat) :
    ∃ battle, s.battle.install ⟨id, name, code⟩ address = .ok battle :=
  ⟨_, Battle.install_eq_ok_iff.mpr ⟨hcode, hroom, h.id_ne_zero hid, h.isSome_indexOf? hid, rfl⟩⟩

theorem InOrder.refused_install (h : s.InOrder rules maxPrograms) {name source : String}
    {filter : Option Admission.Filter} {address : Option String} {cause : ShardError}
    (hrefused : (s.install name source filter address).result = .error cause) :
    s.Refused name source cause (s.install name source filter address).shard := by
  have hsubmitted := s.submitted_install name source filter address
  generalize s.install name source filter address = submitted at hsubmitted hrefused ⊢
  cases hsubmitted with
  | turnedAway why notices hwhy =>
      cases hrefused
      refine .untouched ?_
      cases cause with
      | install why => exact absurd rfl (hwhy why)
      | _ => rfl
  | admitted assembled hroom hfits hassemble =>
      have hplaced := s.placed_place (Text.trimmed name) assembled.words
      generalize s.place (Text.trimmed name) assembled.words = placed at hplaced hrefused ⊢
      cases hplaced with
      | full =>
          cases hrefused
          exact .untouched rfl
      | @refused id freeIds why hfree hinstall =>
          cases hrefused
          refine .queued hfits hassemble ?_ hfree
          by_contra hgood
          obtain ⟨hcode, hsize⟩ := not_or.mp hgood
          have hid : id ∈ s.freeIds := hfree ▸ List.mem_cons_self
          obtain ⟨battle, htaken⟩ := h.exists_install hid hcode (Nat.le_of_not_lt hsize)
            (Text.trimmed name)
            (Placement.middleOfLongestGap s.battle.pointers s.battle.arena.size)
          cases hinstall.symm.trans htaken
      | placed => cases hrefused

/-- Code that the arena has room for is taken, under the number that is next. -/
theorem InOrder.install_ok (h : s.InOrder rules maxPrograms) {name source : String}
    {assembled : Source.Assembled} {id : Nat} {freeIds : List Nat}
    (hfits : s.refuses? (Text.trimmed name) = none)
    (hassemble : Source.assemble source = .ok assembled) (hcode : assembled.words ≠ [])
    (hroom : assembled.words.length ≤ s.battle.arena.size) (hfree : s.freeIds = id :: freeIds) :
    (s.install name source none none).result =
      .ok ⟨id, Placement.middleOfLongestGap s.battle.pointers s.battle.arena.size,
        assembled.bytecode⟩ := by
  have hid : id ∈ s.freeIds := hfree ▸ List.mem_cons_self
  obtain ⟨battle, hinstall⟩ := h.exists_install hid hcode hroom (Text.trimmed name)
    (Placement.middleOfLongestGap s.battle.pointers s.battle.arena.size)
  simp only [Shard.install, hfits, hassemble, Option.bind_none, Shard.place, hfree, hinstall]
  rfl

theorem assemble_jump :
    ∃ assembled, Source.assemble "jump 0" = .ok assembled ∧ assembled.words.length = 1 := by
  have hlength : ((Source.assemble "jump 0").toOption.map (·.words.length)) = some 1 := by
    decide +kernel
  cases hassemble : Source.assemble "jump 0" with
  | error cause =>
      rw [hassemble] at hlength
      cases hlength
  | ok assembled =>
      rw [hassemble] at hlength
      exact ⟨assembled, rfl, Option.some.inj hlength⟩

/-- Whoever comes next under a name that was fine gets another number than without the refusal. -/
theorem InOrder.replies_ne_of_queued (h : s.InOrder rules maxPrograms) {name : String}
    {id other : Nat} {freeIds : List Nat} (hfits : s.refuses? (Text.trimmed name) = none)
    (hfree : s.freeIds = id :: other :: freeIds)
    (hqueued : InOrder rules maxPrograms { s with freeIds := other :: freeIds ++ [id] }) :
    replies { s with freeIds := other :: freeIds ++ [id] } [.install name "jump 0" none none] ≠
      s.replies [.install name "jump 0" none none] := by
  obtain ⟨assembled, hassemble, hlength⟩ := assemble_jump
  have hcode : assembled.words ≠ [] := by
    rintro hnil
    rw [hnil] at hlength
    cases hlength
  have hroom : assembled.words.length ≤ s.battle.arena.size := by
    rw [hlength]
    exact h.battle.size_pos
  have hwith := hqueued.install_ok hfits hassemble hcode hroom rfl
  have hwithout := h.install_ok hfits hassemble hcode hroom hfree
  have hne : other ≠ id := by
    have hnodup := (List.nodup_append.mp h.nodup).1
    rw [hfree, List.nodup_cons] at hnodup
    rintro rfl
    exact hnodup.1 List.mem_cons_self
  intro hsame
  have hanswer := congrArg Reply.answer (List.cons.inj hsame).1
  have hresult := Answer.submitted.inj hanswer
  rw [hwith, hwithout] at hresult
  exact hne (congrArg Installed.id (Except.ok.inj hresult))

/-- A refused submission leaves no trace, unless the battle did not take the code and another number
was free: then the numbers are lent from the next one on. The battle takes all code but what is
empty or larger than the arena. -/
theorem refusal_traceless_iff (id : Nat) (rules : Rules) (maxPrograms maxNameLength : Nat)
    (random : Xoshiro) (steps : List Step) (name source : String)
    (filter : Option Admission.Filter) (address : Option String) (cause : ShardError) :
    let s := (start id rules maxPrograms maxNameLength random).after steps
    let submitted := s.install name source filter address
    submitted.result = .error cause →
      submitted.shard = (if cause.isOfBattle then { s with freeIds := s.freeIds.rotate 1 } else s) ∧
        (cause.isOfBattle = true → ∃ assembled, Source.assemble source = .ok assembled ∧
          (assembled.words = [] ∨ s.battle.arena.size < assembled.words.length)) ∧
        ((∀ later, submitted.shard.replies later = s.replies later) ↔
          (cause.isOfBattle = true → s.freeIds.length ≤ 1)) := by
  intro s submitted hresult
  have hs : s.InOrder rules maxPrograms := inOrder_after_start ..
  have hsubmitted : submitted.shard.InOrder rules maxPrograms := hs.install ..
  have hrefused : s.Refused name source cause submitted.shard := hs.refused_install hresult
  generalize submitted.shard = t at hsubmitted hrefused ⊢
  cases hrefused with
  | untouched hcause =>
      rw [hcause]
      simp
  | @queued assembled why number freeIds hfits hassemble hcode hfree =>
      have hcause : (ShardError.install why).isOfBattle = true := rfl
      refine ⟨?_, fun _ => ⟨assembled, hassemble, hcode⟩, ?_⟩
      · rw [if_pos hcause, hfree, List.rotate_cons_succ, List.rotate_zero]
      · cases freeIds with
        | nil =>
            have hsame : { s with freeIds := [] ++ [number] } = s := by
              rw [List.nil_append, ← hfree]
            rw [hsame, hfree]
            exact iff_of_true (fun _ => rfl) fun _ => Nat.le_refl 1
        | cons other freeIds =>
            refine iff_of_false (fun hsame => ?_) (fun hshort => ?_)
            · exact hs.replies_ne_of_queued hfits hfree hsubmitted (hsame _)
            · have hlength := hshort hcause
              rw [hfree, List.length_cons, List.length_cons] at hlength
              omega

/-- A shard with an arena of sixteen cells, and a submission of no code at all. -/
def emptyShard : Shard :=
  start 1 { columnSize := 1, columnCount := 16 } 8 32 ⟨1, 2, 3, 4⟩

theorem refusal_traceless_iff_empty :
    (emptyShard.install "a" "# nothing" none none).result = .error (.install .emptyProgram) ∧
      (emptyShard.install "a" "# nothing" none none).shard.freeIds = emptyShard.freeIds.rotate 1 ∧
      ¬ ∀ later, (emptyShard.install "a" "# nothing" none none).shard.replies later =
        emptyShard.replies later := by
  have hrefused :
      (emptyShard.install "a" "# nothing" none none).result = .error (.install .emptyProgram) := by
    decide +kernel
  obtain ⟨hshard, -, hiff⟩ := refusal_traceless_iff 1 { columnSize := 1, columnCount := 16 } 8 32
    ⟨1, 2, 3, 4⟩ [] "a" "# nothing" none none _ hrefused
  refine ⟨hrefused, congrArg Shard.freeIds hshard, mt hiff.mp ?_⟩
  decide +kernel

/-- After a refusal the first program of a shard gets the number 2. -/
theorem refusal_moves_number :
    let refused := emptyShard.install "a" "# nothing" none none
    refused.result = .error (.install .emptyProgram) ∧
      (emptyShard.install "b" "jump 0" none none).result.map Installed.id = .ok 1 ∧
      (refused.shard.install "b" "jump 0" none none).result.map Installed.id = .ok 2 := by
  decide +kernel

end Shard

end CoreArena
