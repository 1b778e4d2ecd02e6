import LockScript.Command.Value
import LockScript.Proofs.Text.Spelling

/-!
Hexadecimal arguments.

Scripts and the values under a lock are read by `readHex`, messages and private keys by
`readMessage` and `readPrivateKey`.  All three cut the blanks off the ends of the argument and drop
one mark; the last two then hand the rest to a reader that drops a mark of its own.  An argument
that the first reader takes for 32 bytes is therefore the same 32 bytes to the others, and back,
unless it carries two marks.

`Trimmed` and `Unmarked` say which part of an argument is read, as relations between the argument
and that part.  The functions that compute it do not occur in them.
-/

namespace LockScript
namespace Text

/-! ## Blanks at the ends -/

/-- The second text is the first without the blanks at its ends. -/
structure Trimmed (text core : List Char) : Prop where
  surrounded : ∃ lead trail, text = lead ++ (core ++ trail) ∧
    (∀ c ∈ lead, isBlank c = true) ∧ ∀ c ∈ trail, isBlank c = true
  first : ∀ c ∈ core.head?, isBlank c = false
  last : ∀ c ∈ core.getLast?, isBlank c = false

theorem not_of_mem_head?_dropWhile {p : Char → Bool} {chars : List Char} {c : Char}
    (h : c ∈ (chars.dropWhile p).head?) : p c = false := by
  have hhead := List.head?_dropWhile_not p chars
  rw [Option.mem_def.1 h] at hhead
  simpa using hhead

theorem dropWhile_of_head? {p : Char → Bool} {chars : List Char}
    (h : ∀ c ∈ chars.head?, p c = false) : chars.dropWhile p = chars := by
  cases chars with
  | nil => rfl
  | cons c chars => exact List.dropWhile_cons_of_neg (by simp [h c rfl])

theorem trimmed_trimChars (text : List Char) : Trimmed text (trimChars text) := by
  have hlead := List.takeWhile_append_dropWhile (p := isBlank) (l := text)
  generalize hrest : text.dropWhile isBlank = rest at hlead
  have htrail := List.takeWhile_append_dropWhile (p := isBlank) (l := rest.reverse)
  have hsplit : rest = trimChars text ++ (rest.reverse.takeWhile isBlank).reverse := by
    rw [trimChars, hrest, ← List.reverse_append, htrail, List.reverse_reverse]
  refine ⟨⟨text.takeWhile isBlank, (rest.reverse.takeWhile isBlank).reverse, ?_, ?_, ?_⟩, ?_, ?_⟩
  · rw [← hsplit, hlead]
  · exact List.all_eq_true.1 List.all_takeWhile
  · intro c hc
    exact List.all_eq_true.1 List.all_takeWhile c (List.mem_reverse.1 hc)
  · -- what is cut off the end leaves the first character alone
    intro c hc
    have hmem : c ∈ (text.dropWhile isBlank).head? := by
      rw [hrest, hsplit, List.head?_append, Option.mem_def.1 hc]
      rfl
    exact not_of_mem_head?_dropWhile hmem
  · intro c hc
    rw [trimChars, List.getLast?_reverse] at hc
    exact not_of_mem_head?_dropWhile hc

theorem Trimmed.eq_trimChars {text core : List Char} (h : Trimmed text core) :
    core = trimChars text := by
  obtain ⟨⟨lead, trail, rfl, hlead, htrail⟩, hfirst, hlast⟩ := h
  rw [trimChars, List.dropWhile_append_of_pos hlead]
  cases core with
  | nil =>
    have hnone : (trail ++ []).dropWhile isBlank = [] := List.dropWhile_append_of_pos htrail
    rw [List.append_nil] at hnone
    rw [List.nil_append, hnone]
    rfl
  | cons c rest =>
    have hfront : (c :: rest ++ trail).dropWhile isBlank = c :: rest ++ trail :=
      dropWhile_of_head? hfirst
    have hback : ((c :: rest).reverse).dropWhile isBlank = (c :: rest).reverse := by
      refine dropWhile_of_head? ?_
      rwa [List.head?_reverse]
    have hblanks : ∀ c ∈ trail.reverse, isBlank c = true := fun c hc =>
      htrail c (List.mem_reverse.1 hc)
    rw [hfront, List.reverse_append, List.dropWhile_append_of_pos hblanks, hback,
      List.reverse_reverse]

theorem trimmed_iff {text core : List Char} : Trimmed text core ↔ core = trimChars text := by
  constructor
  · exact Trimmed.eq_trimChars
  · rintro rfl
    exact trimmed_trimChars text

end Text

namespace Command

open Text.Hex (Spells kept)

/-! ## Marks -/

/-- The second text is the first behind one mark of a hexadecimal number, if it has one. -/
inductive Unmarked : List Char → List Char → Prop
  | lower (body : List Char) : Unmarked ('0' :: 'x' :: body) body
  | upper (body : List Char) : Unmarked ('0' :: 'X' :: body) body
  | bare {text : List Char} (hlower : ¬ ['0', 'x'] <+: text) (hupper : ¬ ['0', 'X'] <+: text) :
    Unmarked text text

theorem dropLowerMark_of_not_isPrefix {text : List Char} (h : ¬ ['0', 'x'] <+: text) :
    dropLowerMark text = text := by
  unfold dropLowerMark
  split
  case h_1 rest => exact absurd (List.prefix_append ['0', 'x'] rest) h
  case h_2 => rfl

theorem unmarked_iff {text body : List Char} : Unmarked text body ↔ body = dropMark text := by
  constructor
  · rintro (_ | _ | ⟨hlower, hupper⟩)
    · rfl
    · rfl
    · unfold dropMark
      split
      case h_1 rest => exact absurd (List.prefix_append ['0', 'x'] rest) hlower
      case h_2 rest => exact absurd (List.prefix_append ['0', 'X'] rest) hupper
      case h_3 => rfl
  · rintro rfl
    unfold dropMark
    split
    case h_1 rest => exact .lower rest
    case h_2 rest => exact .upper rest
    case h_3 hlower hupper =>
      refine .bare ?_ ?_
      · rintro ⟨rest, rfl⟩
        exact hlower rest rfl
      · rintro ⟨rest, rfl⟩
        exact hupper rest rfl

/-- The second text is what an argument says: no blanks around it, and one mark less. -/
def Body (argument : String) (body : List Char) : Prop :=
  ∃ core, Text.Trimmed argument.toList core ∧ Unmarked core body

theorem body_iff {argument : String} {body : List Char} :
    Body argument body ↔ body = dropMark (Text.trimChars argument.toList) := by
  simp only [Body, Text.trimmed_iff, unmarked_iff, exists_eq_left]

/-- Behind the mark that is dropped the argument goes on with a second one, in lower case. -/
def MarkedAgain (argument : String) : Prop :=
  ∃ body, Body argument body ∧ ['0', 'x'] <+: body

/-- The letter of the mark is neither a digit nor skipped. -/
theorem not_spells_marked (rest : List Char) (bytes : Bytes) :
    ¬ Spells (kept ('0' :: 'x' :: rest)) bytes := by
  have hkept : kept ('0' :: 'x' :: rest) = '0' :: 'x' :: kept rest := rfl
  have hletter : Text.Hex.digit? 'x' = none := by decide
  rw [Text.Hex.spells_iff, hkept, List.map_cons, List.map_cons, hletter]
  intro h
  have hmem : none ∈ (bytes.flatMap Text.Hex.halves).map some := by
    rw [← h]
    simp
  simp at hmem

/-! ## The readers -/

theorem readHex_eq_ok_iff {text : String} {bytes : Bytes} :
    readHex text = .ok bytes ↔ ∃ body, Body text body ∧ Spells (kept body) bytes := by
  have hdecode : readHex text = .ok bytes ↔
      Text.Hex.decode (String.ofList (dropMark (Text.trimChars text.toList))) = .ok bytes := by
    simp only [readHex]
    cases Text.Hex.decode (String.ofList (dropMark (Text.trimChars text.toList))) <;> simp
  rw [hdecode, Text.Hex.decode_eq_ok_iff, String.toList_ofList]
  simp only [body_iff, exists_eq_left]

theorem readOctets_eq_ok_iff {text : String} {octets : Octets 32} :
    readOctets text = .ok octets ↔
      ∃ body, Body text body ∧ Spells (kept (dropLowerMark body)) octets.bytes := by
  rw [readOctets, Text.Hex.decodeOctets_eq_ok_iff, String.toList_ofList]
  simp only [body_iff, exists_eq_left]

theorem readMessage_eq_ok_iff {text : String} {octets : Octets 32} :
    readMessage text = .ok octets ↔ readOctets text = .ok octets := by
  unfold readMessage
  cases readOctets text <;> simp

theorem readPrivateKey_eq_ok_iff {text : String} {octets : Octets 32} :
    readPrivateKey text = .ok octets ↔ readOctets text = .ok octets := by
  unfold readPrivateKey
  cases readOctets text <;> simp

theorem readOctets_of_readHex {text : String} {octets : Octets 32}
    (h : readHex text = .ok octets.bytes) : readOctets text = .ok octets := by
  obtain ⟨body, hbody, hspells⟩ := readHex_eq_ok_iff.1 h
  have hmark : ¬ ['0', 'x'] <+: body := by
    rintro ⟨rest, rfl⟩
    exact not_spells_marked rest octets.bytes hspells
  refine readOctets_eq_ok_iff.2 ⟨body, hbody, ?_⟩
  rwa [dropLowerMark_of_not_isPrefix hmark]

theorem readHex_iff_of_readOctets {text : String} {octets : Octets 32}
    (h : readOctets text = .ok octets) :
    readHex text = .ok octets.bytes ↔ ¬ MarkedAgain text := by
  obtain ⟨body, hbody, hspells⟩ := readOctets_eq_ok_iff.1 h
  rw [readHex_eq_ok_iff]
  constructor
  · rintro ⟨other, hother, hhex⟩ ⟨marked, hmarked, rest, rfl⟩
    obtain rfl := (body_iff.1 hother).trans (body_iff.1 hmarked).symm
    exact not_spells_marked rest octets.bytes hhex
  · intro hmark
    refine ⟨body, hbody, ?_⟩
    rwa [dropLowerMark_of_not_isPrefix fun hagain => hmark ⟨body, hbody, hagain⟩] at hspells

/-- The readers of hexadecimal arguments agree, two marks apart. -/
theorem hex_readers_agree (text : String) :
    (∀ bytes : Bytes, readHex text = .ok bytes ↔
      ∃ body, Body text body ∧ Spells (kept body) bytes) ∧
    (∀ octets : Octets 32, readHex text = .ok octets.bytes →
      readMessage text = .ok octets ∧ readPrivateKey text = .ok octets) ∧
    (∀ octets : Octets 32, readPrivateKey text = .ok octets ↔ readMessage text = .ok octets) ∧
    (∀ octets : Octets 32, readMessage text = .ok octets →
      (readHex text = .ok octets.bytes ↔ ¬ MarkedAgain text)) := by
  refine ⟨fun bytes => readHex_eq_ok_iff, ?_, ?_, ?_⟩
  · intro octets hhex
    have hread := readOctets_of_readHex hhex
    exact ⟨readMessage_eq_ok_iff.2 hread, readPrivateKey_eq_ok_iff.2 hread⟩
  · intro octets
    rw [readPrivateKey_eq_ok_iff, readMessage_eq_ok_iff]
  · intro octets hmessage
    exact readHex_iff_of_readOctets (readMessage_eq_ok_iff.1 hmessage)

theorem hex_readers_of_one :
    (readHex " 0X0000000000000000000000000000000000000000000000000000000000000 001" =
        .ok (Octets.ofNat 32 1).bytes ∧
      readMessage " 0X0000000000000000000000000000000000000000000000000000000000000 001" =
        .ok (Octets.ofNat 32 1)) ∧
    (readMessage "0x0x0000000000000000000000000000000000000000000000000000000000000001" =
        .ok (Octets.ofNat 32 1) ∧
      readHex "0x0x0000000000000000000000000000000000000000000000000000000000000001" ≠
        .ok (Octets.ofNat 32 1).bytes) := by
  have hspaced : readHex " 0X0000000000000000000000000000000000000000000000000000000000000 001" =
      .ok (Octets.ofNat 32 1).bytes := by decide
  have htwice : readMessage "0x0x0000000000000000000000000000000000000000000000000000000000000001" =
      .ok (Octets.ofNat 32 1) := by decide
  refine ⟨⟨hspaced, ?_⟩, htwice, ?_⟩
  · exact ((hex_readers_agree _).2.1 _ hspaced).1
  · intro hhex
    refine ((hex_readers_agree _).2.2.2 _ htwice).1 hhex ?_
    exact ⟨_, body_iff.2 rfl, List.prefix_append ['0', 'x'] _⟩

end Command
end LockScript
