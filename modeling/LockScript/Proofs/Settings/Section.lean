import LockScript.Proofs.Text.Decimal
import LockScript.Proofs.Text.Spelling
import LockScript.Settings.Document

/-!
Settings files with one section.

`sectionText` writes ceilings below a heading, one in a line, and the file is read back as the table
of just these ceilings.  The proof goes through the file in pieces.  `Scans` says that a piece is a
row of tokens whatever stands behind it, so pieces can be put together, and the end of a line brings
the split into lines back to where it started.
-/

namespace LockScript
namespace Settings

open Machine (Ceiling)

/-! ## Numbers -/

namespace Number

theorem digit?_of_isDigit {c : Char} (h : c.isDigit = true) :
    digit? 10 c = some (c.toNat - 48) := by
  have hrange := Text.Decimal.isDigit_iff.1 h
  have hlt : c.toNat - 48 < 10 := by omega
  rw [digit?, Text.Hex.digit?_eq, if_pos hrange]
  exact Option.filter_eq_some_iff.2 ⟨rfl, decide_eq_true hlt⟩

/-- Only the end is refused behind a gap, so a digit has to follow one. -/
theorem digitsFrom_of_isDigit {chars : List Char} (h : ∀ c ∈ chars, c.isDigit = true)
    (value : Nat) {gap : Bool} (hgap : chars ≠ [] ∨ gap = false) :
    digitsFrom 10 value gap chars = some (Nat.ofDigitChars 10 chars value) := by
  induction chars generalizing value gap with
  | nil =>
    rw [digitsFrom, hgap.resolve_left fun hne => hne rfl]
    rfl
  | cons c chars ih =>
    have hc := h c List.mem_cons_self
    have hunderscore : c ≠ '_' := by
      rintro rfl
      exact absurd hc (by decide)
    rw [digitsFrom, if_neg hunderscore, digit?_of_isDigit hc, Nat.ofDigitChars_cons]
    exact ih (fun other hother => h other (List.mem_cons_of_mem c hother)) _ (.inr rfl)

theorem eq_zero_of_head?_toDigits {n : Nat} (h : (Nat.toDigits 10 n).head? = some '0') :
    n = 0 := by
  induction n using Nat.strongRecOn with
  | ind n ih =>
    rw [Nat.toDigits_eq_if (by decide)] at h
    split at h
    · exact Nat.digitChar_eq_zero.1 (Option.some.inj h)
    · rename_i hlarge
      have hhead : (Nat.toDigits 10 (n / 10)).head? = some '0' := by
        cases hchars : Nat.toDigits 10 (n / 10) with
        | nil => exact absurd hchars Nat.toDigits_ne_nil
        | cons c chars => rwa [hchars] at h
      have hzero : n / 10 = 0 := ih (n / 10) (by omega) hhead
      omega

theorem ofWord?_cons {c : Char} {rest : List Char} (hzero : c ≠ '0') (hminus : c ≠ '-') :
    ofWord? (c :: rest) = (digits 10 (c :: rest)).filter (· < bound) := by
  have hdecimal : decimal (c :: rest) = digits 10 (c :: rest) := by
    unfold decimal
    split
    · rename_i heq
      exact absurd (List.cons.inj heq).1 hzero
    · rfl
  unfold ofWord?
  dsimp only
  split
  · rename_i heq
    exact absurd (List.cons.inj heq).1 hzero
  · rename_i heq
    exact absurd (List.cons.inj heq).1 hzero
  · rename_i heq
    exact absurd (List.cons.inj heq).1 hzero
  · rename_i heq
    exact absurd (List.cons.inj heq).1 hminus
  · rw [hdecimal]

theorem ofWord?_toDigits {n : Nat} (h : n < bound) : ofWord? (Nat.toDigits 10 n) = some n := by
  -- A zero in front may announce another base.  Only zero itself is written with one.
  by_cases hzero : n = 0
  · subst hzero
    rfl
  · have hdigit : ∀ c ∈ Nat.toDigits 10 n, c.isDigit = true := fun c hc =>
      Nat.isDigit_of_mem_toDigits (by decide) (by decide) hc
    have hread : digits 10 (Nat.toDigits 10 n) = some n := by
      rw [digits, digitsFrom_of_isDigit hdigit 0 (.inl Nat.toDigits_ne_nil),
        Nat.ofDigitChars_ten_toDigits]
    cases hchars : Nat.toDigits 10 n with
    | nil => exact absurd hchars Nat.toDigits_ne_nil
    | cons c rest =>
      have hfirst : c ≠ '0' := by
        rintro rfl
        exact hzero (eq_zero_of_head?_toDigits (by rw [hchars]; rfl))
      have hsign : c ≠ '-' := by
        rintro rfl
        exact absurd (hdigit '-' (by rw [hchars]; exact List.mem_cons_self)) (by decide)
      rw [ofWord?_cons hfirst hsign, ← hchars, hread]
      exact Option.filter_eq_some_iff.2 ⟨rfl, decide_eq_true h⟩

end Number

/-! ## Tokens -/

namespace Token

/-- Between tokens, the characters are these tokens, whatever stands behind them. -/
def Scans (chars : List Char) (tokens : List Token) : Prop :=
  ∀ rest, scanFrom .between (chars ++ rest) = (scanFrom .between rest).map (tokens ++ ·)

theorem scanFrom_cons {mode next : Mode} {c : Char} {tokens : List Token} {rest : List Char}
    (h : advance mode c = some (next, tokens)) :
    scanFrom mode (c :: rest) = (scanFrom next rest).map (tokens ++ ·) := by
  rw [scanFrom, h, Option.map_eq_bind]
  rfl

theorem scans_nil : Scans [] [] := by
  intro rest
  cases h : scanFrom .between rest <;> simp [h]

theorem Scans.append {chars others : List Char} {tokens following : List Token}
    (h : Scans chars tokens) (hothers : Scans others following) :
    Scans (chars ++ others) (tokens ++ following) := by
  intro rest
  rw [List.append_assoc, h, hothers, Option.map_map]
  congr 1
  funext behind
  exact (List.append_assoc _ _ _).symm

theorem scans_start {c : Char} {tokens : List Token} (h : start c = some (.between, tokens)) :
    Scans [c] tokens :=
  fun _ => scanFrom_cons h

theorem start_of_isWordChar {c : Char} (h : isWordChar c = true) :
    start c = some (.word [c], []) := by
  unfold start
  -- No character with a meaning of its own stands in a word.
  split <;> first | exact absurd h (by decide) | exact if_pos h

theorem scanFrom_word {chars : List Char} (h : ∀ c ∈ chars, isWordChar c = true)
    (read rest : List Char) :
    scanFrom (.word read) (chars ++ rest) = scanFrom (.word (chars.reverse ++ read)) rest := by
  induction chars generalizing read with
  | nil => rfl
  | cons c chars ih =>
    have hstep : advance (.word read) c = some (.word (c :: read), []) :=
      if_pos (h c List.mem_cons_self)
    rw [List.cons_append, scanFrom_cons hstep,
      ih fun other hother => h other (List.mem_cons_of_mem c hother)]
    simp

/-- A word with the character that ends it. -/
theorem scans_word {chars : List Char} {c : Char} {tokens : List Token} (hne : chars ≠ [])
    (hword : ∀ c ∈ chars, isWordChar c = true) (hend : isWordChar c = false)
    (hstart : start c = some (.between, tokens)) :
    Scans (chars ++ [c]) (word chars :: tokens) := by
  intro rest
  cases chars with
  | nil => exact absurd rfl hne
  | cons first chars =>
    have hfirst : advance .between first = some (.word [first], []) :=
      start_of_isWordChar (hword first List.mem_cons_self)
    have hlast : advance (.word (chars.reverse ++ [first])) c =
        some (.between, word (first :: chars) :: tokens) := by
      simp [advance, hend, startBehind, hstart]
    have hchars := scanFrom_word (fun other hother => hword other (List.mem_cons_of_mem _ hother))
      [first] (c :: rest)
    rw [List.append_assoc, List.cons_append, scanFrom_cons hfirst]
    show (scanFrom (.word [first]) (chars ++ c :: rest)).map ([] ++ ·) = _
    rw [hchars, scanFrom_cons hlast, Option.map_map]
    rfl

end Token

/-! ## A section -/

open Token

/-- A line that sets a ceiling. -/
def settingLine (entry : Ceiling × Nat) : String :=
  entry.1.name ++ " = " ++ toString entry.2 ++ "\n"

/-- A file that sets ceilings in the section for them, one in a line. -/
def sectionText (entries : List (Ceiling × Nat)) : String :=
  "[vm]\n" ++ String.join (entries.map settingLine)

def headingTokens : List Token := [openBracket, word ['v', 'm'], closeBracket]

def settingTokens (entry : Ceiling × Nat) : List Token :=
  [word entry.1.name.toList, equals, word (Nat.toDigits 10 entry.2)]

def settingEntry (entry : Ceiling × Nat) : Entry := .assign [entry.1.name] (.number entry.2)

theorem scans_heading : Scans "[vm]\n".toList (headingTokens ++ [newline]) := by
  have hword : Scans (['v', 'm'] ++ [']']) [word ['v', 'm'], closeBracket] :=
    scans_word (by decide) (by simp [isWordChar]) rfl rfl
  have hopen : Scans ['['] [openBracket] := scans_start rfl
  have hend : Scans ['\n'] [newline] := scans_start rfl
  exact (hopen.append hword).append hend

theorem isWordChar_of_mem_name {ceiling : Ceiling} {c : Char} (h : c ∈ ceiling.name.toList) :
    isWordChar c = true := by
  have hall : ceiling.name.toList.all isWordChar = true := by cases ceiling <;> rfl
  exact List.all_eq_true.1 hall c h

theorem isWordChar_of_isDigit {c : Char} (h : c.isDigit = true) : isWordChar c = true := by
  simp [isWordChar, Char.isAlphanum, h]

theorem scans_settingLine (entry : Ceiling × Nat) :
    Scans (settingLine entry).toList (settingTokens entry ++ [newline]) := by
  have hname : Scans (entry.1.name.toList ++ [' ']) [word entry.1.name.toList] :=
    scans_word (by cases entry.1 <;> decide) (fun _ => isWordChar_of_mem_name) rfl rfl
  have hnumber : Scans (Nat.toDigits 10 entry.2 ++ ['\n'])
      [word (Nat.toDigits 10 entry.2), newline] := by
    refine scans_word Nat.toDigits_ne_nil (fun c hc => isWordChar_of_isDigit ?_) rfl rfl
    exact Nat.isDigit_of_mem_toDigits (by decide) (by decide) hc
  have hequals : Scans ['='] [equals] := scans_start rfl
  have hblank : Scans [' '] [] := scans_start rfl
  have hline := (hname.append (hequals.append hblank)).append hnumber
  have hchars : (settingLine entry).toList =
      (entry.1.name.toList ++ [' '] ++ (['='] ++ [' '])) ++
        (Nat.toDigits 10 entry.2 ++ ['\n']) := by
    simp [settingLine, Nat.toString_eq_repr, Nat.toList_repr]
  rw [hchars]
  exact hline

theorem scan_sectionText (entries : List (Ceiling × Nat)) :
    scan (sectionText entries) =
      some (headingTokens ++ newline :: entries.flatMap fun entry =>
        settingTokens entry ++ [newline]) := by
  have hlines : Scans (String.join (entries.map settingLine)).toList
      (entries.flatMap fun entry => settingTokens entry ++ [newline]) := by
    rw [String.toList_join, List.flatMap_map]
    induction entries with
    | nil => exact scans_nil
    | cons entry entries ih => exact (scans_settingLine entry).append ih
  have hscans := (scans_heading.append hlines) []
  have hscan : scan (sectionText entries) = scanFrom .between (sectionText entries).toList := by
    unfold scan
    split
    · rename_i heq
      simp [sectionText] at heq
    · rfl
  rw [hscan, sectionText, String.toList_append]
  rw [List.append_nil] at hscans
  rw [hscans]
  simp [scanFrom, finish]

/-! ## Lines -/

namespace Entry

theorem splitLines_heading (rest : List Token) :
    splitLines false false (headingTokens ++ newline :: rest) =
      headingTokens :: splitLines false false rest := by
  simp [headingTokens, splitLines]

theorem splitLines_setting (entry : Ceiling × Nat) (rest : List Token) :
    splitLines false false (settingTokens entry ++ newline :: rest) =
      settingTokens entry :: splitLines false false rest := by
  simp [settingTokens, splitLines]

theorem splitLines_section (entries : List (Ceiling × Nat)) :
    splitLines false false (headingTokens ++ newline :: entries.flatMap fun entry =>
      settingTokens entry ++ [newline]) = headingTokens :: (entries.map settingTokens ++ [[]]) := by
  rw [splitLines_heading]
  congr 1
  induction entries with
  | nil => rfl
  | cons entry entries ih =>
    rw [List.flatMap_cons, List.append_assoc, List.singleton_append, splitLines_setting, ih]
    rfl

theorem ofLine?_setting {entry : Ceiling × Nat} (h : entry.2 < Number.bound) :
    ofLine? (settingTokens entry) = some (settingEntry entry) := by
  simp [settingTokens, settingEntry, ofLine?, path?, name?, value?, number?,
    Number.ofWord?_toDigits h]

theorem mapM_ofLine? {entries : List (Ceiling × Nat)}
    (h : ∀ entry ∈ entries, entry.2 < Number.bound) :
    (entries.map settingTokens).mapM ofLine? = some (entries.map settingEntry) := by
  induction entries with
  | nil => rfl
  | cons entry entries ih =>
    rw [List.map_cons, List.mapM_cons, ofLine?_setting (h entry List.mem_cons_self),
      ih fun other hother => h other (List.mem_cons_of_mem entry hother)]
    rfl

theorem read?_sectionText {entries : List (Ceiling × Nat)}
    (h : ∀ entry ∈ entries, entry.2 < Number.bound) :
    read? (sectionText entries) = some (.heading ["vm"] :: entries.map settingEntry) := by
  have hsettings : (entries.map settingTokens).filter (fun line => !line.isEmpty) =
      entries.map settingTokens := by
    refine List.filter_eq_self.2 fun line hline => ?_
    obtain ⟨entry, -, rfl⟩ := List.mem_map.1 hline
    rfl
  have hlines : (headingTokens :: (entries.map settingTokens ++ [[]])).filter
      (fun line => !line.isEmpty) = headingTokens :: entries.map settingTokens := by
    rw [List.filter_cons_of_pos rfl, List.filter_append, hsettings]
    exact congrArg _ (List.append_nil _)
  have hheading : ofLine? headingTokens = some (.heading ["vm"]) := rfl
  rw [read?, scan_sectionText]
  show (List.filter _ (splitLines false false _)).mapM ofLine? = _
  rw [splitLines_section, hlines, List.mapM_cons, hheading, mapM_ofLine? h]
  rfl

end Entry

/-! ## The table -/

namespace Draft

theorem add_name {draft : Draft} {ceiling : Ceiling} (n : Nat)
    (h : draft.values.lookup ceiling = none) :
    draft.add ceiling.name n = some { draft with values := draft.values ++ [(ceiling, n)] } := by
  rw [add, Ceiling.ofName?_name]
  show (if (draft.values.lookup ceiling).isSome then none else _) = _
  rw [h]
  rfl

/-- In the section each line adds its ceiling behind those that are there. -/
theorem foldlM_addEntry (values : List (Ceiling × Nat)) {entries : List (Ceiling × Nat)}
    (h : ((values ++ entries).map Prod.fst).Nodup) :
    (entries.map settingEntry).foldlM addEntry ⟨.inSection, values⟩ =
      some ⟨.inSection, values ++ entries⟩ := by
  induction entries generalizing values with
  | nil => simp
  | cons entry entries ih =>
    have hnew : values.lookup entry.1 = none := by
      rw [List.map_append, List.nodup_append] at h
      refine List.lookup_eq_none_iff.2 fun other hother => bne_iff_ne.2 fun heq => ?_
      exact h.2.2 _ (List.mem_map_of_mem hother) _ List.mem_cons_self heq.symm
    have hadd : addEntry ⟨.inSection, values⟩ (settingEntry entry) =
        some ⟨.inSection, values ++ [entry]⟩ := add_name entry.2 hnew
    have happend : values ++ entry :: entries = values ++ [entry] ++ entries := by simp
    rw [happend] at h
    rw [List.map_cons, List.foldlM_cons, hadd, happend]
    exact ih _ h

end Draft

theorem read?_sectionText {entries : List (Ceiling × Nat)}
    (hdistinct : (entries.map Prod.fst).Nodup)
    (hbound : ∀ entry ∈ entries, entry.2 < Number.bound) :
    read? (sectionText entries) = some fun ceiling => entries.lookup ceiling := by
  have hfold : (Entry.heading ["vm"] :: entries.map settingEntry).foldlM Draft.addEntry {} =
      some ⟨.inSection, entries⟩ := Draft.foldlM_addEntry [] hdistinct
  rw [read?, Entry.read?_sectionText hbound, Option.bind_eq_bind, Option.bind_some, hfold]
  rfl

end Settings
end LockScript
