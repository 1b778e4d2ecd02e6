import LockScript.Proofs.Command.Line
import LockScript.Proofs.Command.Report
import LockScript.Proofs.Machine.Locks
import LockScript.Proofs.Script.RoundTrip

/-!
A printed digest is the digest that a script computes.

The command that prints a digest finds the algorithm by its name and the value by its text.  A
script finds the algorithm by its opcode and the value by its length byte, and tracing it prints
what is on the stack.  Both ways are followed from the arguments to the lines, and meet.
-/

namespace LockScript

namespace Machine

theorem digest_ne_nil (algorithm : Digest.Algorithm) (value : Bytes) :
    algorithm.digest value ≠ [] := by
  intro hnil
  have hlength := algorithm.length_digest value
  rw [hnil] at hlength
  cases algorithm <;> cases hlength

theorem within_standard {value : Bytes} (h : value.length ≤ 255) :
    (Stack.ofItems [value]).Within .standard := by
  rw [Stack.within_ofItems_iff]
  simp only [weight_cons, weight_nil, List.mem_singleton, forall_eq, List.length_singleton]
  show value.length + 0 ≤ 1024 ∧ 1 ≤ 256 ∧ value.length ≤ 512
  omega

theorem trace_digest {context : Context} {value : Bytes} (algorithm : Digest.Algorithm)
    (hlimits : context.limits = .standard) (hvalue : value.length ≤ 255) :
    (trace context [.pushb value, .digest algorithm]).1 =
      ⟨[⟨0, .pushb value, .ofItems [value]⟩,
        ⟨1, .digest algorithm, .ofItems [algorithm.digest value]⟩], .accepted⟩ := by
  have hsize : (algorithm.digest value).length ≤ 255 := by
    rw [algorithm.length_digest]
    cases algorithm <;> decide
  have hbefore := within_standard hvalue
  have hbehind := within_standard hsize
  rw [← hlimits] at hbefore hbehind
  have hpushed : perform context 2 0 (.ofItems []) (.pushb value) =
      .ok (.next 1 (.ofItems [value])) :=
    (perform_pushb_iff (Stack.within_empty _)).2 ⟨rfl, rfl, hbefore⟩
  have hdigested : perform context 2 1 (.ofItems [value]) (.digest algorithm) =
      .ok (.next 2 (.ofItems [algorithm.digest value])) :=
    (perform_digest_iff hbefore).2 ⟨value, [], rfl, rfl, rfl, hbehind⟩
  have haccepted : conclude (.ofItems [algorithm.digest value]) = .accepted :=
    conclude_ofItems_eq_accepted_iff.2 ⟨_, rfl, digest_ne_nil algorithm value⟩
  have hsteps : context.limits.maxSteps = 998 + 2 := by rw [hlimits]; rfl
  show run context [.pushb value, .digest algorithm] (.ofItems []) = _
  rw [run, hsteps, runFrom_next rfl hpushed, runFrom_next rfl hdigested, runFrom_end rfl,
    haccepted]
  rfl

end Machine

namespace Command

def hashArguments (algorithm : Digest.Algorithm) (text : String) : Found :=
  { seen := ["algorithm", "VALUE"], given := [("algorithm", algorithm.name), ("VALUE", text)] }

def traceArguments (text : String) : Found := { seen := ["SCRIPT"], given := [("SCRIPT", text)] }

theorem read_hash (algorithm : Digest.Algorithm) {text : String} (h : Plain text) :
    program.read ["hash", "--algorithm", algorithm.name, text] =
      .ok ⟨0, some ("hash", hashArguments algorithm text)⟩ := by
  have hname : Plain algorithm.name := by
    unfold Plain
    cases algorithm <;> decide
  refine Program.read_of_command { found := hashArguments algorithm text } (by decide) rfl ?_ ?_
  · rw [Grammar.read_cons rfl, Grammar.read_cons (readArgument_of_plain rfl hname),
      Grammar.read_cons (readArgument_of_plain rfl h)]
    rfl
  · cases algorithm <;> rfl

theorem read_trace {text : String} (h : Plain text) :
    program.read ["trace", text] = .ok ⟨0, some ("trace", traceArguments text)⟩ := by
  refine Program.read_of_command { found := traceArguments text } (by decide) rfl ?_ ?_
  · rw [Grammar.read_cons (readArgument_of_plain rfl h)]
    rfl
  · rfl

theorem limitsRead_trace (surroundings : Surroundings) (text : String) :
    limitsRead surroundings (Request.limitsOf (traceArguments text)) = .ok .standard := rfl

/-! ## Lines -/

/-- The arguments are in order, and the command they ask for ends well and prints the lines. -/
def Prints (surroundings : Surroundings) (arguments lines : List String) : Prop :=
  ∃ invocation, program.read arguments = .ok invocation ∧
    (carryOut surroundings invocation).result = .ok () ∧
    (carryOut surroundings invocation).transcript.lines = lines

theorem stepLine_singleton (pc : Nat) (instruction : Instruction) (value : Bytes) :
    Session.stepLine ⟨pc, instruction, .ofItems [value]⟩ =
      "#" ++ toString pc ++ " " ++ instruction.text ++ " [0x" ++ Text.Hex.encode value ++ "]" := by
  show "#" ++ toString pc ++ " " ++ instruction.text ++ " [" ++ ("0x" ++ Text.Hex.encode value) ++
    "]" = _
  have hopening : " [0x" = " [" ++ "0x" := rfl
  rw [hopening]
  simp only [String.append_assoc]

theorem prints_of_report {surroundings : Surroundings} {arguments lines : List String}
    {invocation : Invocation} {request : Request} {log : List Log.Record}
    (hread : program.read arguments = .ok invocation)
    (hrequest : Request.ofInvocation invocation = .ok request)
    (hreport : request.report surroundings = .ok ⟨lines, log⟩) :
    Prints surroundings arguments lines := by
  refine ⟨invocation, hread, ?_⟩
  rw [carryOut_of_request hrequest, hreport]
  exact ⟨rfl, rfl⟩

theorem prints_hash (surroundings : Surroundings) (algorithm : Digest.Algorithm) {text : String}
    {value : Bytes} (htext : readHex text = .ok value) :
    Prints surroundings ["hash", "--algorithm", algorithm.name, text]
      [Text.Hex.encode (algorithm.digest value)] := by
  have hreport : (Request.hash algorithm.name (some text)).report surroundings =
      .ok { lines := [Text.Hex.encode (algorithm.digest value)] } := by
    simp only [Request.report, bytesRead, htext, digestRead, Digest.Algorithm.ofName?_name]
    rfl
  exact prints_of_report (read_hash algorithm (plain_of_readHex htext)) rfl hreport

theorem prints_trace (surroundings : Surroundings) {script : Script} {bytes : Bytes}
    (h : Script.encode script = .ok bytes) :
    Prints surroundings ["trace", Text.Hex.encode bytes]
      ((Machine.trace {} script).1.steps.map Session.stepLine ++
        [(Machine.trace {} script).1.verdict.text]) := by
  have htext := readHex_encode bytes
  have htask : traceRead surroundings (some (Text.Hex.encode bytes)) none
      (Request.limitsOf (traceArguments (Text.Hex.encode bytes))) =
        .ok { context := {}, script } := by
    simp only [traceRead, bytesRead, htext, scriptRead, bind, Except.bind,
      Script.decode_of_encode h, limitsRead_trace]
    rfl
  have hreport : (Request.trace (some (Text.Hex.encode bytes)) none
      (Request.limitsOf (traceArguments (Text.Hex.encode bytes)))).report surroundings =
        .ok (Task.traceReport { context := {}, script }) := by
    rw [Request.report, htask]
    rfl
  exact prints_of_report (read_trace (plain_of_readHex htext)) rfl hreport

/-- The line that is printed for a value is what a script that computes the digest leaves on the
stack, as the trace of that script prints it, and the script is accepted. -/
theorem printed_digest_is_traced (surroundings : Surroundings) (algorithm : Digest.Algorithm)
    {value : Bytes} {text : String} (hlength : value.length ≤ 255)
    (htext : readHex text = .ok value) :
    ∃ bytes, Script.encode [.pushb value, .digest algorithm] = .ok bytes ∧
      Prints surroundings ["hash", "--algorithm", algorithm.name, text]
        [Text.Hex.encode (algorithm.digest value)] ∧
      Prints surroundings ["trace", Text.Hex.encode bytes]
        ["#0 " ++ (Instruction.pushb value).text ++ " [0x" ++ Text.Hex.encode value ++ "]",
          "#1 " ++ algorithm.mnemonic ++ " [0x" ++ Text.Hex.encode (algorithm.digest value) ++ "]",
          "Accepted"] := by
  have hwritable : Script.Writable [.pushb value, .digest algorithm] := by
    intro blob hblob
    obtain rfl : blob = value := by simpa using hblob
    exact hlength
  obtain ⟨bytes, hbytes⟩ := Script.encode_isOk_iff.2 hwritable
  refine ⟨bytes, hbytes, prints_hash surroundings algorithm htext, ?_⟩
  have hprints := prints_trace surroundings hbytes
  rw [Machine.trace_digest algorithm rfl hlength] at hprints
  simp only [List.map_cons, List.map_nil, stepLine_singleton] at hprints
  exact hprints

/-- The digest of nothing, from a text that is a mark between blanks. -/
theorem printed_digest_of_nothing :
    readHex " 0X " = .ok [] ∧
    Prints {} ["hash", "--algorithm", "sha256", " 0X "]
      ["e3b0c44298fc1c149afbf4c8996fb92427ae41e4649b934ca495991b7852b855"] ∧
    Prints {} ["trace", "320091"]
      ["#0 PUSHB 0x [0x]",
        "#1 SHA256 [0xe3b0c44298fc1c149afbf4c8996fb92427ae41e4649b934ca495991b7852b855]",
        "Accepted"] := by
  have htext : readHex " 0X " = .ok [] := by rfl
  have hdigest : Text.Hex.encode (Digest.Algorithm.sha256.digest []) =
      "e3b0c44298fc1c149afbf4c8996fb92427ae41e4649b934ca495991b7852b855" := by decide +kernel
  obtain ⟨bytes, hbytes, hhash, htrace⟩ := printed_digest_is_traced {} .sha256 (by decide) htext
  cases hbytes
  rw [hdigest] at hhash htrace
  exact ⟨htext, hhash, htrace⟩

end Command
end LockScript
