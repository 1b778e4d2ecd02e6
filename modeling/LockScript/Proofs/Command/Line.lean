import LockScript.Command.Arguments
import LockScript.Command.Value
import LockScript.Proofs.Text.Hex

/-!
Values on the command line.

Written bytes are read back, and whatever is read as bytes is not mistaken for an option.  The
arguments behind a command are then taken one by one.
-/

namespace LockScript
namespace Command

/-! ## Bytes -/

theorem dropMark_of_second {a b : Char} {rest : List Char} (hlower : b ≠ 'x') (hupper : b ≠ 'X') :
    dropMark (a :: b :: rest) = a :: b :: rest := by
  unfold dropMark
  split
  · rename_i heq
    cases heq
    exact absurd rfl hlower
  · rename_i heq
    cases heq
    exact absurd rfl hupper
  · rfl

theorem dropMark_encodeChars (case : Text.Hex.Case) (bytes : Bytes) :
    dropMark (Text.Hex.encodeChars case bytes) = Text.Hex.encodeChars case bytes := by
  match bytes with
  | [] => rfl
  | byte :: bytes =>
    have hbyte := byte.toNat_lt
    have hdigit := Text.Hex.digit?_digitChar case (show byte.toNat % 16 < 16 by omega)
    exact dropMark_of_second (Text.Hex.ne_of_digit? hdigit (by decide))
      (Text.Hex.ne_of_digit? hdigit (by decide))

theorem readHex_encode (bytes : Bytes) : readHex (Text.Hex.encode bytes) = .ok bytes := by
  have htrim : Text.trimChars (Text.Hex.encodeChars .lower bytes) =
      Text.Hex.encodeChars .lower bytes := by
    refine Text.trimChars_of_forall fun c hc => ?_
    obtain ⟨d, hd⟩ := Text.Hex.exists_digit?_of_mem_encodeChars hc
    exact Text.Hex.isBlank_of_digit? hd
  simp only [readHex, Text.Hex.encode, String.toList_ofList, htrim, dropMark_encodeChars,
    Text.Hex.decode_encodeChars]

/-! ## Arguments -/

/-- The argument is no option: it does not start with a hyphen. -/
def Plain (argument : String) : Prop := argument.toList.head? ≠ some '-'

theorem plain_of_readHex {text : String} {bytes : Bytes} (h : readHex text = .ok bytes) :
    Plain text := by
  intro hhead
  obtain ⟨chars, hchars⟩ := List.head?_eq_some_iff.1 hhead
  rw [readHex, hchars, Text.trimChars_cons (by decide)] at h
  have hmark (chars : List Char) : dropMark ('-' :: chars) = '-' :: chars := rfl
  have hdigits (chars : List Char) :
      Text.Hex.digits 0 ('-' :: chars) = .error (.character '-' 0) := rfl
  simp only [hmark, Text.Hex.decode, String.toList_ofList, hdigits] at h
  cases h

theorem readArgument_of_plain {grammar : Grammar} {progress : Progress} {argument : String}
    (htrailing : progress.trailing = false) (h : Plain argument) :
    grammar.readArgument progress argument =
      match progress.pending? with
      | some rule =>
        .ok { progress with found := progress.found.addValue rule.name argument, pending? := none }
      | none => grammar.readPositional progress argument := by
  have hhead (rest : List Char) : argument.toList ≠ '-' :: rest := by
    intro hchars
    exact h (by rw [hchars]; rfl)
  unfold Grammar.readArgument
  rw [htrailing, if_neg (by decide)]
  split
  · exact absurd ‹_› (hhead _)
  · exact absurd ‹_› (hhead _)
  · exact absurd ‹_› (hhead _)
  · rfl

theorem Grammar.read_cons {grammar : Grammar} {progress next : Progress} {argument : String}
    {rest : List String} (h : grammar.readArgument progress argument = .ok next) :
    grammar.read (fun _ => false) progress (argument :: rest) =
      grammar.read (fun _ => false) next rest := by
  rw [Grammar.read, Bool.and_false, if_neg (by decide), h]
  rfl

theorem Program.read_of_command {program : Program} {name : String} {rest : List String}
    {grammar : Grammar} {found : Found} (progress : Progress) (hname : name ≠ Program.helpName)
    (hlookup : program.commands.lookup name = some grammar)
    (hread : grammar.read (fun _ => false) {} rest = .ok (progress, none))
    (hcheck : grammar.check progress = .ok found) :
    program.read (name :: rest) = .ok ⟨0, some (name, found)⟩ := by
  have hcommand : program.isCommand name = true := by simp [Program.isCommand, hlookup]
  have htop : program.top.read program.isCommand {} (name :: rest) =
      .ok ({}, some (name, rest)) := by
    simp [Grammar.read, hcommand]
  simp only [Program.read, htop, bind, Except.bind, hname, if_false, hlookup, hread, hcheck]
  rfl

end Command
end LockScript
