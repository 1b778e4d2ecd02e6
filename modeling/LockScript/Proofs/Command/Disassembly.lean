import LockScript.Proofs.Command.Line
import LockScript.Proofs.Command.Report
import LockScript.Proofs.Script.Disassembly

/-!
The two commands that print a script print enough to tell it from every other.

One prints the words of the script in a line, the other a numbered line for each instruction.  What
can be compared is the text on standard output, in which each line is followed by its end.  The
lines are found again in it, and the script in the lines.
-/

namespace LockScript
namespace Command

/-! ## Lines in the output -/

theorem toList_output (transcript : Transcript) :
    transcript.output.toList = ['\n'].intercalate (transcript.lines.map String.toList ++ [[]]) := by
  rw [Transcript.output, String.toList_join, List.flatMap_map]
  induction transcript.lines with
  | nil => rfl
  | cons line lines ih =>
    rw [List.flatMap_cons, ih, String.toList_append, List.map_cons, List.cons_append]
    cases hlines : lines.map String.toList ++ [[]] with
    | nil => simp at hlines
    | cons first others => rw [List.intercalate_cons_cons]; rfl

/-- No line of the transcript is broken by an end of line. -/
def Transcript.Whole (transcript : Transcript) : Prop :=
  ∀ line ∈ transcript.lines, '\n' ∉ line.toList

theorem lines_eq_of_output {transcript other : Transcript} (hwhole : transcript.Whole)
    (hother : other.Whole) (h : transcript.output = other.output) :
    transcript.lines = other.lines := by
  have hsplit {transcript : Transcript} (hwhole : transcript.Whole) :
      transcript.output.toList.splitOn '\n' = transcript.lines.map String.toList ++ [[]] := by
    rw [toList_output]
    refine List.splitOn_intercalate '\n' (fun chars hchars => ?_) (by simp)
    rcases List.mem_append.1 hchars with hline | hend
    · obtain ⟨line, hmem, rfl⟩ := List.mem_map.1 hline
      exact hwhole line hmem
    · simp [List.mem_singleton.1 hend]
  have hlines := hsplit hwhole
  rw [h, hsplit hother] at hlines
  exact (List.map_inj_right fun _ _ => String.toList_inj.1).1 (List.append_cancel_right hlines).symm

/-! ## The two commands -/

/-- The outcome of a command on a script when `bytes` are what is read for the script. -/
def OutcomeOn (request : Option String → Request) (bytes : Bytes) (outcome : Outcome) : Prop :=
  ∃ surroundings invocation script?, Request.ofInvocation invocation = .ok (request script?) ∧
    bytesRead surroundings script? = .ok bytes ∧ carryOut surroundings invocation = outcome

/-- The command ends well with the lines on standard output. -/
structure Outcome.Shows (outcome : Outcome) (lines : List String) : Prop where
  result : outcome.result = .ok ()
  lines_eq : outcome.transcript.lines = lines

/-- The invocation of a command with a script in the argument. -/
def onScript (command text : String) : Invocation :=
  ⟨0, some (command, { given := [("SCRIPT", text)] })⟩

theorem exists_outcomeOn_tokenize (bytes : Bytes) :
    ∃ outcome, OutcomeOn .tokenize bytes outcome := by
  have hread : bytesRead {} (some (Text.Hex.encode bytes)) = .ok bytes := readHex_encode bytes
  exact ⟨_, {}, onScript "tokenize" (Text.Hex.encode bytes), _, rfl, hread, rfl⟩

theorem exists_outcomeOn_decode (bytes : Bytes) : ∃ outcome, OutcomeOn .decode bytes outcome := by
  have hread : bytesRead {} (some (Text.Hex.encode bytes)) = .ok bytes := readHex_encode bytes
  exact ⟨_, {}, onScript "decode" (Text.Hex.encode bytes), _, rfl, hread, rfl⟩

section

variable {bytes : Bytes} {script : Script} {outcome : Outcome}

theorem shows_of_tokenize (hdecode : Script.decode bytes = .ok script)
    (h : OutcomeOn .tokenize bytes outcome) : outcome.Shows [script.spaced] := by
  obtain ⟨surroundings, invocation, script?, hrequest, hbytes, rfl⟩ := h
  have hreport : (Request.tokenize script?).report surroundings =
      .ok { lines := [script.spaced] } := by
    simp only [Request.report, hbytes, bind, Except.bind, Script.tokenize_eq, hdecode]
    rfl
  rw [carryOut_of_request hrequest, hreport]
  exact ⟨rfl, rfl⟩

theorem shows_of_decode (hdecode : Script.decode bytes = .ok script)
    (h : OutcomeOn .decode bytes outcome) : outcome.Shows script.listing := by
  obtain ⟨surroundings, invocation, script?, hrequest, hbytes, rfl⟩ := h
  have hreport : (Request.decode script?).report surroundings =
      .ok { lines := script.listing } := by
    simp only [Request.report, hbytes, bind, Except.bind, scriptRead, hdecode]
    rfl
  rw [carryOut_of_request hrequest, hreport]
  exact ⟨rfl, rfl⟩

theorem whole_of_shows {lines : List String} (h : outcome.Shows lines)
    (hlines : ∀ line ∈ lines, '\n' ∉ line.toList) : outcome.transcript.Whole := by
  rw [Transcript.Whole, h.lines_eq]
  exact hlines

end

theorem lines_eq_of_shows {outcome outcome' : Outcome} {lines lines' : List String}
    (h : outcome.Shows lines) (h' : outcome'.Shows lines')
    (hlines : ∀ line ∈ lines, '\n' ∉ line.toList) (hlines' : ∀ line ∈ lines', '\n' ∉ line.toList)
    (hsame : outcome.transcript.output = outcome'.transcript.output) : lines = lines' := by
  rw [← h.lines_eq, ← h'.lines_eq]
  exact lines_eq_of_output (whole_of_shows h hlines) (whole_of_shows h' hlines') hsame

theorem script_eq_of_output {bytes bytes' : Bytes} {script script' : Script}
    {outcome outcome' : Outcome} (hdecode : Script.decode bytes = .ok script)
    (hdecode' : Script.decode bytes' = .ok script')
    (hsame : outcome.transcript.output = outcome'.transcript.output)
    (h : OutcomeOn .tokenize bytes outcome ∧ OutcomeOn .tokenize bytes' outcome' ∨
      OutcomeOn .decode bytes outcome ∧ OutcomeOn .decode bytes' outcome') : script = script' := by
  rcases h with ⟨htokenize, htokenize'⟩ | ⟨hlist, hlist'⟩
  · have hwhole (script : Script) : ∀ line ∈ [script.spaced], '\n' ∉ line.toList := by
      simpa using script.newline_not_mem_spaced
    have hlines := lines_eq_of_shows (shows_of_tokenize hdecode htokenize)
      (shows_of_tokenize hdecode' htokenize') (hwhole script) (hwhole script') hsame
    exact Script.spaced_injective (List.cons.inj hlines).1
  · have hlines := lines_eq_of_shows (shows_of_decode hdecode hlist)
      (shows_of_decode hdecode' hlist') (fun _ => Script.newline_not_mem_listing)
      (fun _ => Script.newline_not_mem_listing) hsame
    exact Script.listing_injective hlines

/-- Words are taken down exactly where a script is read, with the same error elsewhere, and both
commands can be given any bytes and print the script in them.  Two byte strings of which one of the
commands prints the same are the same. -/
theorem disassembly_is_faithful (bytes bytes' : Bytes) :
    (∀ e, Script.tokenize bytes = .error e ↔ Script.decode bytes = .error e) ∧
    (∀ script, Script.decode bytes = .ok script →
      Script.tokenize bytes = .ok (script.flatMap Instruction.tokens) ∧
      (∃ outcome, OutcomeOn .tokenize bytes outcome) ∧
      (∀ outcome, OutcomeOn .tokenize bytes outcome → outcome.Shows [script.spaced]) ∧
      (∃ outcome, OutcomeOn .decode bytes outcome) ∧
      ∀ outcome, OutcomeOn .decode bytes outcome → outcome.Shows script.listing) ∧
    ∀ script script', Script.decode bytes = .ok script → Script.decode bytes' = .ok script' →
      ∀ outcome outcome', outcome.transcript.output = outcome'.transcript.output →
        OutcomeOn .tokenize bytes outcome ∧ OutcomeOn .tokenize bytes' outcome' ∨
          OutcomeOn .decode bytes outcome ∧ OutcomeOn .decode bytes' outcome' →
        bytes = bytes' := by
  refine ⟨fun e => ?_, fun script hdecode => ⟨?_, exists_outcomeOn_tokenize bytes, ?_,
    exists_outcomeOn_decode bytes, ?_⟩, ?_⟩
  · rw [Script.tokenize_eq, Result.map_eq_error_iff]
  · rw [Script.tokenize_eq, hdecode]
    rfl
  · intro outcome houtcome
    exact shows_of_tokenize hdecode houtcome
  · intro outcome houtcome
    exact shows_of_decode hdecode houtcome
  · intro script script' hdecode hdecode' outcome outcome' hsame houtcomes
    obtain rfl := script_eq_of_output hdecode hdecode' hsame houtcomes
    have hencode := Script.encode_of_decode hdecode
    rw [Script.encode_of_decode hdecode'] at hencode
    exact (Except.ok.inj hencode).symm

/-- A byte and a blob of that one byte. -/
theorem disassembly_tells_byte_from_blob :
    (carryOut {} (onScript "tokenize" "3005")).Shows ["PUSH 0x5"] ∧
    (carryOut {} (onScript "decode" "320105")).Shows ["0: PUSHB 0x05"] ∧
    (carryOut {} (onScript "tokenize" "3005")).transcript.output ≠
      (carryOut {} (onScript "tokenize" "320105")).transcript.output := by
  have hbyte : Script.decode [0x30, 0x05] = .ok [.push 5] := Script.decode_of_encode rfl
  have hblob : Script.decode [0x32, 0x01, 0x05] = .ok [.pushb [5]] := Script.decode_of_encode rfl
  have htokenize : OutcomeOn .tokenize [0x30, 0x05] (carryOut {} (onScript "tokenize" "3005")) :=
    ⟨{}, onScript "tokenize" "3005", some "3005", rfl, rfl, rfl⟩
  have htokenize' : OutcomeOn .tokenize [0x32, 0x01, 0x05]
      (carryOut {} (onScript "tokenize" "320105")) :=
    ⟨{}, onScript "tokenize" "320105", some "320105", rfl, rfl, rfl⟩
  have hlist : OutcomeOn .decode [0x32, 0x01, 0x05] (carryOut {} (onScript "decode" "320105")) :=
    ⟨{}, onScript "decode" "320105", some "320105", rfl, rfl, rfl⟩
  obtain ⟨-, hshows, hinjective⟩ := disassembly_is_faithful [0x30, 0x05] [0x32, 0x01, 0x05]
  obtain ⟨-, hshows', -⟩ := disassembly_is_faithful [0x32, 0x01, 0x05] [0x30, 0x05]
  refine ⟨(hshows _ hbyte).2.2.1 _ htokenize, (hshows' _ hblob).2.2.2.2 _ hlist, fun hsame => ?_⟩
  have hbytes := hinjective _ _ hbyte hblob _ _ hsame (.inl ⟨htokenize, htokenize'⟩)
  cases hbytes

end Command
end LockScript
