import LockScript.Proofs.Script.Walk
import LockScript.Proofs.Text.Hex
import LockScript.Script.Basic

/-!
What is printed of a script says what the script is.

The words of a script stand in a row, and nothing marks where an instruction begins.  A mnemonic
tells what operand follows it, so the row is taken apart from its front: a mnemonic, the operand it
asks for, the next mnemonic.  A byte is written without a leading zero and a blob with two digits a
byte, and each of the two can be read back by whoever knows which one it is.  No word holds a blank
and no line holds an end of line, so words and lines are found again in the text.
-/

namespace LockScript

/-! ## A byte without its leading zero -/

namespace Text
namespace Hex

/-- The number that some digits denote, most significant digit first. -/
def numeral (chars : List Char) : Nat :=
  chars.foldl (fun n c => 16 * n + (digit? c).getD 0) 0

theorem numeral_shortUpper (byte : UInt8) : numeral (shortUpper byte).toList = byte.toNat := by
  have hbyte := byte.toNat_lt
  rw [shortUpper, String.toList_ofList]
  by_cases hshort : byte < 16
  · have hdigit : byte.toNat < 16 := hshort
    simp [numeral, hshort, digit?_digitChar .upper hdigit]
  · have hhigh := digit?_digitChar .upper (show byte.toNat / 16 < 16 by omega)
    have hlow := digit?_digitChar .upper (show byte.toNat % 16 < 16 by omega)
    simp only [numeral, hshort, byteChars, hhigh, hlow, if_false, List.foldl_cons, List.foldl_nil,
      Option.getD_some]
    omega

theorem exists_digit?_of_mem_shortUpper {byte : UInt8} {c : Char}
    (h : c ∈ (shortUpper byte).toList) : ∃ d, digit? c = some d := by
  rw [shortUpper, String.toList_ofList] at h
  by_cases hshort : byte < 16
  · have hdigit : byte.toNat < 16 := hshort
    obtain rfl : c = digitChar .upper byte.toNat := by simpa [hshort] using h
    exact ⟨_, digit?_digitChar .upper hdigit⟩
  · have hmem : c ∈ encodeChars .upper [byte] := by simpa [hshort, encodeChars] using h
    exact exists_digit?_of_mem_encodeChars hmem

end Hex
end Text

namespace Script

/-! ## Words -/

/-- The opcode of each mnemonic. -/
def mnemonics : List (String × UInt8) :=
  [("NOP", 0x00), ("BURN", 0x01), ("NOT", 0x10), ("EQ", 0x11), ("JMP", 0x20), ("JNZ", 0x21),
    ("JZ", 0x22), ("PUSH", 0x30), ("POP", 0x31), ("PUSHB", 0x32), ("DUP", 0x33), ("SWAP", 0x34),
    ("COPY", 0x35), ("DROP", 0x36), ("CHKSIG", 0x80), ("BLAKE256", 0x90), ("SHA256", 0x91),
    ("RIPEMD160", 0x92), ("KECCAK256", 0x93)]

theorem lookup_mnemonic (instruction : Instruction) :
    mnemonics.lookup instruction.mnemonic = some instruction.opcode := by
  cases instruction with
  | digest algorithm => cases algorithm <;> rfl
  | _ => rfl

/-- The instruction of a shape, with its operand at the front of some words. -/
def Shape.ofWords? : Shape → List String → Option (Instruction × List String)
  | .plain instruction, words => some (instruction, words)
  | .byte make, word :: words =>
    some (make (.ofNat (Text.Hex.numeral (word.toList.drop 2))), words)
  | .blob make, word :: words =>
    match Text.Hex.decode (String.ofList (word.toList.drop 2)) with
    | .ok value => some (make value, words)
    | .error _ => none
  | _, [] => none

/-- The instruction at the front of some words, and the words behind it. -/
def firstOfWords? : List String → Option (Instruction × List String)
  | [] => none
  | word :: words => do
    let opcode ← mnemonics.lookup word
    let shape ← Shape.ofOpcode? opcode
    shape.ofWords? words

theorem drop_mark (literal : String) : ("0x" ++ literal).toList.drop 2 = literal.toList := by
  rw [String.toList_append]
  rfl

theorem firstOfWords?_tokens (instruction : Instruction) (words : List String) :
    firstOfWords? (instruction.tokens ++ words) = some (instruction, words) := by
  have htable := ofOpcode?_opcode instruction
  rw [Instruction.tokens, List.cons_append, firstOfWords?, lookup_mnemonic]
  cases hoperand : instruction.operand with
  | none =>
    rw [hoperand] at htable
    simp only [Option.bind_eq_bind, Option.bind_some, htable]
    rfl
  | byte value =>
    rw [hoperand] at htable
    obtain ⟨make, hmake, hvalue⟩ := htable
    simp only [Option.bind_eq_bind, Option.bind_some, hmake, Instruction.Operand.token?,
      Option.toList_some, List.singleton_append, Shape.ofWords?, drop_mark,
      Text.Hex.numeral_shortUpper, UInt8.ofNat_toNat, hvalue]
  | blob value =>
    rw [hoperand] at htable
    obtain ⟨make, hmake, hvalue⟩ := htable
    simp only [Option.bind_eq_bind, Option.bind_some, hmake, Instruction.Operand.token?,
      Option.toList_some, List.singleton_append, Shape.ofWords?, drop_mark, Text.Hex.encodeUpper,
      String.toList_ofList, Text.Hex.decode_encodeChars, hvalue]

theorem tokens_append_inj {first second : Instruction} {words others : List String}
    (h : first.tokens ++ words = second.tokens ++ others) : first = second ∧ words = others := by
  have hfirst := firstOfWords?_tokens first words
  rw [h, firstOfWords?_tokens] at hfirst
  cases hfirst
  exact ⟨rfl, rfl⟩

theorem tokens_injective : Function.Injective Instruction.tokens := by
  intro first second h
  have hwords : first.tokens ++ [] = second.tokens ++ [] := by rw [h]
  exact (tokens_append_inj hwords).1

theorem flatMap_tokens_injective :
    Function.Injective fun script : Script => script.flatMap Instruction.tokens := by
  intro script
  induction script with
  | nil =>
    intro other h
    cases other with
    | nil => rfl
    | cons instruction other => cases h
  | cons instruction script ih =>
    intro other h
    cases other with
    | nil => cases h
    | cons second other =>
      obtain ⟨rfl, hrest⟩ := tokens_append_inj h
      rw [ih hrest]

/-! ## Words in a text -/

/-- Something that can be told apart from what is around it by the blanks. -/
def IsWord (word : String) : Prop := word ≠ "" ∧ ∀ c ∈ word.toList, Text.isBlank c = false

theorem isWord_of_all {word : String} (hne : word ≠ "")
    (hall : (word.toList.all fun c => !Text.isBlank c) = true) : IsWord word := by
  refine ⟨hne, fun c hc => ?_⟩
  simpa using List.all_eq_true.1 hall c hc

theorem isWord_mnemonic (instruction : Instruction) : IsWord instruction.mnemonic := by
  cases instruction with
  | digest algorithm => cases algorithm <;> exact isWord_of_all (by decide) (by decide)
  | _ =>
    apply isWord_of_all <;> simp only [Instruction.mnemonic]
    all_goals decide

theorem isWord_literal {literal : String}
    (h : ∀ c ∈ literal.toList, ∃ d, Text.Hex.digit? c = some d) : IsWord ("0x" ++ literal) := by
  refine ⟨?_, fun c hc => ?_⟩
  · intro hempty
    have hlist := congrArg String.toList hempty
    rw [String.toList_append] at hlist
    cases hlist
  · rw [String.toList_append] at hc
    rcases List.mem_append.1 hc with hmark | hdigits
    · have hword : IsWord "0x" := isWord_of_all (by decide) (by decide)
      exact hword.2 c hmark
    · obtain ⟨d, hd⟩ := h c hdigits
      exact Text.Hex.isBlank_of_digit? hd

theorem isWord_of_mem_tokens {instruction : Instruction} {word : String}
    (h : word ∈ instruction.tokens) : IsWord word := by
  rcases List.mem_cons.1 h with rfl | hoperand
  · exact isWord_mnemonic instruction
  · cases hcase : instruction.operand with
    | none =>
      rw [hcase] at hoperand
      cases hoperand
    | byte value =>
      obtain rfl : word = "0x" ++ Text.Hex.shortUpper value := by
        simpa [hcase, Instruction.Operand.token?] using hoperand
      exact isWord_literal fun _ => Text.Hex.exists_digit?_of_mem_shortUpper
    | blob value =>
      obtain rfl : word = "0x" ++ Text.Hex.encodeUpper value := by
        simpa [hcase, Instruction.Operand.token?] using hoperand
      refine isWord_literal fun c hc => ?_
      rw [Text.Hex.encodeUpper, String.toList_ofList] at hc
      exact Text.Hex.exists_digit?_of_mem_encodeChars hc

theorem splitOn_spaced {words : List String} (hwords : ∀ word ∈ words, IsWord word)
    (hne : words ≠ []) : (" ".intercalate words).toList.splitOn ' ' = words.map String.toList := by
  rw [String.toList_intercalate]
  refine List.splitOn_intercalate ' ' (fun chars hchars hmem => ?_) (by simpa using hne)
  obtain ⟨word, hword, rfl⟩ := List.mem_map.1 hchars
  have hblank := (hwords word hword).2 ' ' hmem
  cases hblank

theorem ne_nil_of_spaced {words : List String} (hwords : ∀ word ∈ words, IsWord word)
    (hne : words ≠ []) : " ".intercalate words ≠ "" := by
  intro hempty
  have hsplit := splitOn_spaced hwords hne
  rw [hempty] at hsplit
  cases words with
  | nil => exact hne rfl
  | cons word words =>
    have hword := (hwords word List.mem_cons_self).1
    rw [List.map_cons] at hsplit
    obtain ⟨hnil, -⟩ := List.cons.inj hsplit
    exact hword (String.toList_inj.1 hnil.symm)

/-- Words are found again in a text where single spaces stand between them. -/
theorem spaced_inj {words others : List String} (hwords : ∀ word ∈ words, IsWord word)
    (hothers : ∀ word ∈ others, IsWord word) (h : " ".intercalate words = " ".intercalate others) :
    words = others := by
  by_cases hne : words = []
  · by_cases hne' : others = []
    · rw [hne, hne']
    · subst hne
      exact absurd h.symm (ne_nil_of_spaced hothers hne')
  · by_cases hne' : others = []
    · subst hne'
      exact absurd h (ne_nil_of_spaced hwords hne)
    · have hsplit := splitOn_spaced hwords hne
      rw [h, splitOn_spaced hothers hne'] at hsplit
      exact (List.map_inj_right fun _ _ => String.toList_inj.1).1 hsplit.symm

theorem text_injective : Function.Injective Instruction.text := by
  intro first second h
  apply tokens_injective
  exact spaced_inj (fun _ => isWord_of_mem_tokens) (fun _ => isWord_of_mem_tokens) h

/-- The words of a script in one line. -/
def spaced (script : Script) : String := " ".intercalate (script.flatMap Instruction.tokens)

theorem isWord_of_mem_flatMap {script : Script} {word : String}
    (h : word ∈ script.flatMap Instruction.tokens) : IsWord word := by
  obtain ⟨instruction, -, hword⟩ := List.mem_flatMap.1 h
  exact isWord_of_mem_tokens hword

theorem spaced_injective : Function.Injective spaced := by
  intro script other h
  apply flatMap_tokens_injective
  exact spaced_inj (fun _ => isWord_of_mem_flatMap) (fun _ => isWord_of_mem_flatMap) h

/-! ## Lines -/

theorem listing_injective : Function.Injective listing := by
  intro script other h
  have hlength : script.length = other.length := by
    simpa [listing] using congrArg List.length h
  apply List.ext_getElem?
  intro index
  have hline := congrArg (·[index]?) h
  simp only [listing, List.getElem?_mapIdx, hlength] at hline
  refine Option.map_injective (fun first second heq => ?_) hline
  exact text_injective ((String.append_right_inj _).1 heq)

theorem newline_not_mem_toString (n : Nat) : '\n' ∉ (toString n).toList := by
  intro hmem
  change '\n' ∈ n.repr.toList at hmem
  rw [Nat.toList_repr] at hmem
  have hdigit := Nat.isDigit_of_mem_toDigits (by decide) (by decide) hmem
  cases hdigit

theorem newline_not_mem_padLeft (width n : Nat) : '\n' ∉ (padLeft width n).toList := by
  rw [padLeft, String.toList_append, String.toList_ofList, List.mem_append, not_or]
  refine ⟨?_, newline_not_mem_toString n⟩
  intro hmem
  cases List.eq_of_mem_replicate hmem

theorem newline_not_mem_intercalate {words : List String} (hwords : ∀ word ∈ words, IsWord word) :
    '\n' ∉ (" ".intercalate words).toList := by
  rw [String.toList_intercalate]
  induction words with
  | nil => simp
  | cons word words ih =>
    have hword : '\n' ∉ word.toList := by
      intro hmem
      cases (hwords word List.mem_cons_self).2 '\n' hmem
    have hrest := ih fun other hother => hwords other (List.mem_cons_of_mem _ hother)
    cases words with
    | nil => simpa using hword
    | cons next words =>
      rw [List.map_cons, List.map_cons, List.intercalate_cons_cons, ← List.map_cons]
      simp only [List.mem_append, not_or]
      exact ⟨⟨hword, by decide⟩, hrest⟩

theorem newline_not_mem_listing {script : Script} {line : String} (h : line ∈ script.listing) :
    '\n' ∉ line.toList := by
  obtain ⟨index, hindex, rfl⟩ := List.mem_mapIdx.1 h
  simp only [String.toList_append, List.mem_append, not_or]
  exact ⟨⟨newline_not_mem_padLeft _ _, by decide⟩,
    newline_not_mem_intercalate fun _ => isWord_of_mem_tokens⟩

theorem newline_not_mem_spaced (script : Script) : '\n' ∉ script.spaced.toList :=
  newline_not_mem_intercalate fun _ => isWord_of_mem_flatMap

/-! ## Words on a walk -/

theorem words_eq {reader : Reader} (h : reader.failed = false) :
    reader.words = (decode reader.rest).map (·.flatMap Instruction.tokens) := by
  fun_induction Reader.words reader with
  | case1 reader behind hnext =>
    have hend := Reader.next_eq_none_iff.1 (congrArg Prod.fst hnext)
    rw [hend.resolve_left (by simp [h]), decode]
    rfl
  | case2 reader e behind hnext =>
    -- of the three things that a call can come to, the equation leaves one
    obtain ⟨hcall, -⟩ | ⟨_, _, _, _, hcall, -⟩ | ⟨opcode, rest, _, size, hcall, -, hrest, hread⟩ :=
      reader.next_cases
    all_goals
      rw [hnext] at hcall
      cases hcall
    rw [hrest, decode_of_readFirst_error hread]
    rfl
  | case3 reader instruction behind hnext ih =>
    obtain ⟨hcall, -⟩ | ⟨opcode, rest, _, size, hcall, -, hrest, hread⟩ | ⟨_, _, _, _, hcall, -⟩ :=
      reader.next_cases
    all_goals
      rw [hnext] at hcall
      cases hcall
    have hskip : (reader.skip size).rest = reader.rest.drop size := rfl
    rw [ih h, hskip, hrest, decode_cons hread, ← hrest]
    cases decode (reader.rest.drop size) <;> rfl

theorem tokenize_eq (bytes : Bytes) :
    tokenize bytes = (decode bytes).map (·.flatMap Instruction.tokens) :=
  words_eq rfl

end Script
end LockScript
