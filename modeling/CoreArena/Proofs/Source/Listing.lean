import CoreArena.Proofs.Source.Sequence
import CoreArena.Source.Listing

/-! # Listings read back

Every instruction that statements can express is listed as a wording of itself, so the listing of
a program assembles to the words it was made from as long as its statements are not too many. Blank
lines count for nothing there and are statements in a listing: `listing_reassembles`. -/

namespace CoreArena.Source

open Text

namespace Listing

theorem wording_joined {keyword link : String} {op : Operation}
    (h : ∃ k ∈ keywords, ∃ l ∈ k.shape.links, l.operation = op ∧
      keyword.toList = k.phrase.toList ++ [' '] ∧ link.toList = ' ' :: l.phrase.toList)
    {first second : Operand} (hfirst : first.Within Operand.maxDepth)
    (hsecond : second.Within Operand.maxDepth) :
    Wording (joined keyword link ⟨op, some first, some second⟩) ⟨op, some first, some second⟩ := by
  obtain ⟨k, hk, l, hl, rfl, hkeyword, hlink⟩ := h
  have hwording := Wording.binary hk hl hfirst hsecond
  simpa [joined, hkeyword, hlink, Instruction.firstOrZero, Instruction.secondOrZero] using hwording

/-- An instruction that statements can express is listed as a wording of itself. -/
theorem wording_statement {i : Instruction} (h : i.Expressible) : Wording (statement i) i := by
  obtain ⟨hvalid, hform⟩ := h
  cases hform with
  | data hv => exact .data (k := ⟨"data", .unary .data⟩) (by decide) rfl hv
  | bare harity =>
      obtain rfl | rfl := Operation.eq_of_arity_eq_zero harity
      · exact .bare (k := ⟨"nop", .bare .noop⟩) (by decide) rfl
      · contradiction
  | unary harity hop ho =>
      obtain rfl | rfl := Operation.eq_of_arity_eq_one harity
      · contradiction
      · exact .unary (k := ⟨"jump", .unary .jump⟩) (by decide) rfl hop ho
  | @binary op first second harity hfirst hsecond =>
      cases op with
      | data | noop | jump | invalid => cases harity
      | skipIfEqual | skipIfGreater | skipIfLower | write | copy | move | add | subtract
      | multiply => exact wording_joined (by decide) hfirst hsecond

end Listing

/-! ## Listings -/

section Programs

variable {ws : List Word}

theorem toList_text (ws : List Word) :
    (Listing.text ws).toList = ['\n'].intercalate (ws.map Listing.line) :=
  String.toList_ofList

/-- The lines of a listing state the instructions that its words decode as. -/
theorem forall₂_states (h : ∀ w ∈ ws, (Instruction.decode w).Expressible) :
    List.Forall₂ States (ws.map Listing.line) (ws.map Instruction.decode) := by
  rw [List.forall₂_map_left_iff, List.forall₂_map_right_iff, List.forall₂_same]
  exact fun w hw => (Listing.wording_statement (h w hw)).states

/-- A listing of no more lines than a program may have statements assembles to its words. -/
theorem assemble_text (h : ∀ w ∈ ws, (Instruction.decode w).Expressible)
    (hwords : ∀ w ∈ ws, (Instruction.decode w).encode = w) (hlength : ws.length ≤ maxStatements) :
    ∃ a, assemble (Listing.text ws) = .ok a ∧ a.words = ws := by
  obtain ⟨a, ha, haw⟩ := assemble_of_states (toList_text ws) (forall₂_states h)
    (by rwa [List.length_map])
  refine ⟨a, ha, ?_⟩
  rw [haw, List.map_map]
  exact (List.map_congr_left hwords).trans (List.map_id ws)

/-- A longer listing is refused for the first line that is one too many. -/
theorem assemble_text_of_lt (h : ∀ w ∈ ws, (Instruction.decode w).Expressible)
    (hlength : maxStatements < ws.length) :
    assemble (Listing.text ws) = .error (.badLine (maxStatements + 1) .programTooLong) :=
  assemble_of_states_of_lt (toList_text ws) (exists_states (forall₂_states h))
    (by rwa [List.length_map])

end Programs

/-- The listing of a text's words assembles to the very same bytes if it has no more lines than a
program may have statements. Blank lines let a text have more words than that, and then its listing
is refused for the first line that is one too many. -/
theorem listing_reassembles {source : String} {a : Assembled} (h : assemble source = .ok a) :
    ∃ ws, disassembleBytes a.bytecode = .ok ws ∧
      (ws.length ≤ maxStatements →
        ∃ b, assemble (Listing.text ws) = .ok b ∧ b.bytecode = a.bytecode) ∧
      (maxStatements < ws.length →
        assemble (Listing.text ws) = .error (.badLine (maxStatements + 1) .programTooLong)) := by
  have hwords := expressible_of_assemble h
  refine ⟨a.words, ?_, fun hlength => ?_, assemble_text_of_lt fun w hw => (hwords w hw).1⟩
  · rw [disassembleBytes, Assembled.bytecode, Bytecode.decode?_encode]
  · obtain ⟨b, hb, hbwords⟩ := assemble_text (fun w hw => (hwords w hw).1)
      (fun w hw => (hwords w hw).2) hlength
    exact ⟨b, hb, congrArg Bytecode.encode hbwords⟩

theorem listing_reassembles_copy :
    assemble "Copy 0 , 1\n\njump -2" = .ok ⟨[1342177281, -2147483648, 335511552], []⟩ ∧
      ∃ b, assemble (Listing.text [1342177281, -2147483648, 335511552]) = .ok b ∧
        b.bytecode = Bytecode.encode [1342177281, -2147483648, 335511552] := by
  have h : assemble "Copy 0 , 1\n\njump -2" =
      .ok ⟨[1342177281, -2147483648, 335511552], []⟩ := by
    decide +kernel
  refine ⟨h, ?_⟩
  obtain ⟨ws, hws, hshort, -⟩ := listing_reassembles h
  obtain rfl : [1342177281, -2147483648, 335511552] = ws := by
    simpa [disassembleBytes, Assembled.bytecode] using hws
  exact hshort (by decide)

/-- A statement behind as many blank lines as a program may have statements makes a program whose
listing is refused. -/
theorem listing_refused_blank :
    assemble (String.ofList (List.replicate 48 '\n' ++ "nop".toList)) =
        .ok ⟨List.replicate 49 Instruction.noop.encode, []⟩ ∧
      disassembleBytes (Bytecode.encode (List.replicate 49 Instruction.noop.encode)) =
        .ok (List.replicate 49 Instruction.noop.encode) ∧
      assemble (Listing.text (List.replicate 49 Instruction.noop.encode)) =
        .error (.badLine 49 .programTooLong) := by
  refine ⟨by decide +kernel, by rw [disassembleBytes, Bytecode.decode?_encode], ?_⟩
  refine assemble_text_of_lt (fun w hw => ?_) (by decide)
  rw [List.eq_of_mem_replicate hw, Instruction.decode_encode (Instruction.wellFormed_noop 3)]
  exact expressible_noop

end CoreArena.Source
