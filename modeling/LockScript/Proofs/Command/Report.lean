import LockScript.Command.Process
import LockScript.Proofs.Script.RoundTrip

/-!
Commands that read first and write last.

A session may write at any point, and what it has written stays when it fails later on.  The
commands make no use of that: each reads all that it needs, any of which may fail, and then has
nothing left but to write.  `Request.report` is a command in that form, a failure or else all that
is written, and every command settles on its report.
-/

namespace LockScript
namespace Command

namespace Transcript

/-- What was written first, with what was written behind it. -/
def append (first second : Transcript) : Transcript :=
  ⟨first.lines ++ second.lines, first.log ++ second.log⟩

theorem append_assoc (first second third : Transcript) :
    (first.append second).append third = first.append (second.append third) := by
  simp [append]

theorem empty_append (second : Transcript) : append {} second = second := by
  simp [append]

end Transcript

/-! ## What is read -/

section

variable (surroundings : Surroundings)

def bytesRead : Option String → Except Failure Bytes
  | some text => readHex text
  | none =>
    match decodeText? (firstLine surroundings.input) with
    | some text => readHex text
    | none => .error .input

def scriptRead (failure : DecodeError → Failure) (bytes : Bytes) : Except Failure Script :=
  (Script.decode bytes).mapError failure

def unlockRead : Option String → Except Failure Script
  | none => .ok []
  | some text => do
    let bytes ← readHex text
    scriptRead Failure.unlockScript bytes

def messageRead : Option String → Except Failure Key.Message
  | some text => readMessage text
  | none => .ok (Octets.zero 32)

def settingsRead : Option String → Except Failure (Machine.Ceiling → Option Nat)
  | none => .ok fun _ => none
  | some path => do
    let bytes ← (surroundings.fileAt path).mapError Failure.file
    match decodeText? bytes with
    | none => .error (.file .notText)
    | some text =>
      match Settings.read? text with
      | some changes => .ok changes
      | none => .error .settings

def limitsRead (source : LimitSource) : Except Failure Machine.Limits := do
  let settings ← settingsRead surroundings source.config?
  let options ← (readCeilings source.texts).mapError Failure.ceiling
  return (Machine.Limits.standard.update settings).update options

/-- What there is to run. -/
structure Task where
  context : Machine.Context
  unlocking : Script := []
  params : List Bytes := []
  script : Script

def executeRead (lock : String) (unlock? : Option String) (params : List String)
    (message? : Option String) (source : LimitSource) : Except Failure Task := do
  let bytes ← readHex lock
  let script ← scriptRead Failure.lockScript bytes
  let unlocking ← unlockRead unlock?
  let params ← params.mapM readHex
  let message ← messageRead message?
  let limits ← limitsRead surroundings source
  return { context := { message, limits }, unlocking, params, script }

def traceRead (script? message? : Option String) (source : LimitSource) : Except Failure Task := do
  let bytes ← bytesRead surroundings script?
  let script ← scriptRead Failure.script bytes
  let message ← messageRead message?
  let limits ← limitsRead surroundings source
  return { context := { message, limits }, script }

def digestRead (name : String) (value : Bytes) : Except Failure Bytes :=
  match Digest.Algorithm.ofName? name with
  | some algorithm => .ok (algorithm.digest value)
  | none => .error (.algorithm name)

/-! ## What is written -/

/-- The verdict on a locked script, behind the records of the run. -/
def Task.unlockReport (task : Task) : Transcript :=
  let unlocked := Machine.unlock task.context task.unlocking task.params task.script
  { lines := [unlocked.1.text]
    log := Session.limitRecords task.context.limits ++ unlocked.2 }

/-- The steps of a run and the verdict, behind the records of the run. -/
def Task.traceReport (task : Task) : Transcript :=
  let traced := Machine.trace task.context task.script
  { lines := traced.1.steps.map Session.stepLine ++ [traced.1.verdict.text]
    log := Session.limitRecords task.context.limits ++ traced.2 }

theorem Task.unlockReport_eq (task : Task) :
    task.unlockReport =
      let unlocked := Machine.unlock task.context task.unlocking task.params task.script
      Transcript.append { log := Session.limitRecords task.context.limits }
        (Transcript.append { log := unlocked.2 } { lines := [unlocked.1.text] }) := by
  simp [unlockReport, Transcript.append]

theorem Task.traceReport_eq (task : Task) :
    task.traceReport =
      let traced := Machine.trace task.context task.script
      Transcript.append { log := Session.limitRecords task.context.limits }
        (Transcript.append { log := traced.2 }
          (Transcript.append { lines := traced.1.steps.map Session.stepLine }
            { lines := [traced.1.verdict.text] })) := by
  simp [traceReport, Transcript.append]

theorem Task.getLast?_unlockReport (task : Task) :
    task.unlockReport.lines.getLast? =
      some (Machine.unlock task.context task.unlocking task.params task.script).1.text := by
  simp [unlockReport]

theorem Task.getLast?_traceReport (task : Task) :
    task.traceReport.lines.getLast? =
      some (Machine.trace task.context task.script).1.verdict.text := by
  simp [traceReport]

/-- What a request comes to. -/
def Request.report : Request → Except Failure Transcript
  | .tokenize script? => do
    let bytes ← bytesRead surroundings script?
    let tokens ← (Script.tokenize bytes).mapError Failure.script
    return { lines := [" ".intercalate tokens] }
  | .decode script? => do
    let bytes ← bytesRead surroundings script?
    let script ← scriptRead Failure.script bytes
    return { lines := script.listing }
  | .execute lock unlock? params message? source => do
    let task ← executeRead surroundings lock unlock? params message? source
    return task.unlockReport
  | .trace script? message? source => do
    let task ← traceRead surroundings script? message? source
    return task.traceReport
  | .hash algorithm value? => do
    let value ← bytesRead surroundings value?
    let digest ← digestRead algorithm value
    return { lines := [Text.Hex.encode digest] }
  | .keygen => do
    let pair ← (Key.Pair.generate surroundings.candidates).mapError Failure.generating
    return { lines := pair.lines }
  | .publicKey key => do
    let key ← readPrivateKey key
    let pair ← (Key.Pair.ofPrivate key).mapError Failure.publicKey
    return { lines := [Text.Hex.encode pair.publicKey.bytes] }
  | .sign key message => do
    let key ← readPrivateKey key
    let message ← readMessage message
    let signature ← (Key.sign key message).mapError Failure.signing
    return { lines := [signature.text] }

end

/-! ## Parts of sessions -/

namespace Session

def outcome {α : Type} (session : Session α) (surroundings : Surroundings) (before : Transcript) :
    Except Failure α × Transcript :=
  ((session.run surroundings).run).run before

section

variable {ε α β : Type} (surroundings : Surroundings)

/-- The session comes to `result` and writes nothing. -/
def Reads (session : Session α) (result : Except Failure α) : Prop :=
  ∀ before, session.outcome surroundings before = (result, before)

/-- The session does not fail, and adds something to what was written before. -/
def Writes (session : Session α) (result : α) (added : Transcript) : Prop :=
  ∀ before, session.outcome surroundings before = (.ok result, before.append added)

/-- The session fails and has written nothing, or ends well and has written what is reported. -/
def Settles (session : Session Unit) (report : Except Failure Transcript) : Prop :=
  ∀ before, session.outcome surroundings before =
    match report with
    | .error failure => (.error failure, before)
    | .ok added => (.ok (), before.append added)

variable {surroundings}

theorem outcome_bind (session : Session α) (next : α → Session β) (before : Transcript) :
    (session >>= next).outcome surroundings before =
      match (session.outcome surroundings before).1 with
      | .ok a => (next a).outcome surroundings (session.outcome surroundings before).2
      | .error failure => (.error failure, (session.outcome surroundings before).2) := by
  have hbind : (session >>= next).outcome surroundings before =
      (ExceptT.bindCont (fun a => (next a).run surroundings)
        (session.outcome surroundings before).1) (session.outcome surroundings before).2 := rfl
  rw [hbind]
  cases (session.outcome surroundings before).1 <;> rfl

theorem Reads.bind {session : Session α} {next : α → Session β} {result : Except Failure α}
    {follow : α → Except Failure β} (h : Reads surroundings session result)
    (hnext : ∀ a, Reads surroundings (next a) (follow a)) :
    Reads surroundings (session >>= next) (result >>= follow) := by
  intro before
  rw [outcome_bind, h before]
  cases result with
  | error failure => rfl
  | ok a => exact hnext a before

theorem Writes.bind {session : Session α} {next : α → Session β} {a : α} {b : β}
    {first second : Transcript} (h : Writes surroundings session a first)
    (hnext : Writes surroundings (next a) b second) :
    Writes surroundings (session >>= next) b (first.append second) := by
  intro before
  rw [outcome_bind, h before, ← Transcript.append_assoc]
  exact hnext (before.append first)

theorem Writes.settles {session : Session Unit} {added : Transcript}
    (h : Writes surroundings session () added) : Settles surroundings session (.ok added) :=
  h

/-- Whatever comes behind a part that only reads may still fail. -/
theorem Reads.settles {session : Session α} {next : α → Session Unit}
    {result : Except Failure α} {follow : α → Except Failure Transcript}
    (h : Reads surroundings session result)
    (hnext : ∀ a, Settles surroundings (next a) (follow a)) :
    Settles surroundings (session >>= next) (result >>= follow) := by
  intro before
  rw [outcome_bind, h before]
  cases result with
  | error failure => rfl
  | ok a => exact hnext a before

theorem reads_pure (a : α) : Reads surroundings (pure a) (.ok a) :=
  fun _ => rfl

theorem reads_throw (failure : Failure) :
    Reads surroundings (throw failure : Session α) (.error failure) :=
  fun _ => rfl

theorem reads_read {next : Surroundings → Session α} {result : Except Failure α}
    (h : Reads surroundings (next surroundings) result) :
    Reads surroundings (read >>= next) result :=
  h

theorem reads_orFail (failure : ε → Failure) (result : Except ε α) :
    Reads surroundings (orFail failure result) (result.mapError failure) := by
  intro before
  cases result <;> rfl

theorem reads_orFail_id (result : Except Failure α) :
    Reads surroundings (orFail id result) result := by
  intro before
  cases result <;> rfl

theorem writes_modify {change : Transcript → Transcript} {added : Transcript}
    (h : ∀ before, change before = before.append added) :
    Writes surroundings (modify change) () added := by
  intro before
  rw [← h]
  rfl

theorem writes_print (line : String) : Writes surroundings (print line) () { lines := [line] } :=
  writes_modify fun before => by simp [Transcript.append]

theorem writes_printAll (lines : List String) :
    Writes surroundings (printAll lines) () { lines } :=
  writes_modify fun before => by simp [Transcript.append]

theorem writes_record (records : List Log.Record) :
    Writes surroundings (record records) () { log := records } :=
  writes_modify fun before => by simp [Transcript.append]

theorem writes_logged (result : Log.Logged α) :
    Writes surroundings (logged result) result.1 { log := result.2 } := by
  intro before
  rw [logged, outcome_bind, writes_record result.2 before]
  rfl

/-! ## Commands -/

theorem reads_bytesOf (text? : Option String) :
    Reads surroundings (bytesOf text?) (bytesRead surroundings text?) := by
  cases text? with
  | some text => exact reads_orFail_id (readHex text)
  | none =>
    refine reads_read ?_
    simp only [bytesRead]
    cases decodeText? (firstLine surroundings.input) with
    | some text => exact reads_orFail_id (readHex text)
    | none => exact reads_throw _

theorem reads_messageOf (text? : Option String) :
    Reads surroundings (messageOf text?) (messageRead text?) := by
  cases text? with
  | some text => exact reads_orFail_id (readMessage text)
  | none => exact reads_pure _

theorem reads_settingsOf (path? : Option String) :
    Reads surroundings (settingsOf path?) (settingsRead surroundings path?) := by
  cases path? with
  | none => exact reads_pure _
  | some path =>
    refine reads_read ((reads_orFail _ _).bind fun bytes => ?_)
    cases decodeText? bytes with
    | none => exact reads_throw _
    | some text =>
      dsimp only
      cases Settings.read? text with
      | none => exact reads_throw _
      | some changes => exact reads_pure _

theorem reads_digestOf (name : String) (value : Bytes) :
    Reads surroundings (digestOf name value) (digestRead name value) := by
  unfold digestOf digestRead
  cases Digest.Algorithm.ofName? name with
  | none => exact reads_throw _
  | some algorithm => exact reads_pure _

/-- The limits are recorded once they are known, and after that nothing may fail. -/
theorem settles_limitsOf (source : LimitSource) {next : Machine.Limits → Session Unit}
    {added : Machine.Limits → Transcript}
    (hnext : ∀ limits, Writes surroundings (next limits) () (added limits)) :
    Settles surroundings (limitsOf source >>= next)
      (limitsRead surroundings source >>= fun limits =>
        .ok (Transcript.append { log := limitRecords limits } (added limits))) := by
  simp only [limitsOf, limitsRead, bind_assoc, pure_bind]
  refine (reads_settingsOf _).settles fun settings => ?_
  refine (reads_orFail _ _).settles fun options => ?_
  exact ((writes_record _).bind (hnext _)).settles

theorem settles_perform (request : Request) :
    Settles surroundings (perform request) (request.report surroundings) := by
  cases request with
  | tokenize script? =>
    refine (reads_bytesOf script?).settles fun bytes => ?_
    refine (reads_orFail _ _).settles fun tokens => ?_
    exact (writes_print _).settles
  | decode script? =>
    refine (reads_bytesOf script?).settles fun bytes => ?_
    refine (reads_orFail _ _).settles fun script => ?_
    exact (writes_printAll _).settles
  | execute lock unlock? params message? source =>
    simp only [Request.report, executeRead, bind_assoc, pure_bind]
    refine (reads_orFail_id _).settles fun bytes => ?_
    refine (reads_orFail _ _).settles fun script => ?_
    -- What follows the unlocking script is the same with and without one.
    have tail (unlocking : Script) : Settles surroundings
        (do
          let params ← orFail id (params.mapM readHex)
          let message ← messageOf message?
          let limits ← limitsOf source
          let verdict ← logged (Machine.unlock { message, limits } unlocking params script)
          print verdict.text)
        (do
          let params ← params.mapM readHex
          let message ← messageRead message?
          let limits ← limitsRead surroundings source
          let context := { message, limits }
          return Task.unlockReport { context, unlocking, params, script }) := by
      refine (reads_orFail_id _).settles fun params => ?_
      refine (reads_messageOf message?).settles fun message => ?_
      simp only [Task.unlockReport_eq]
      refine settles_limitsOf source fun limits => ?_
      exact (writes_logged _).bind (writes_print _)
    cases unlock? with
    | none => exact tail []
    | some text =>
      simp only [unlockRead, bind_assoc]
      refine (reads_orFail_id _).settles fun bytes => ?_
      exact (reads_orFail _ _).settles tail
  | trace script? message? source =>
    simp only [Request.report, traceRead, bind_assoc, pure_bind]
    refine (reads_bytesOf script?).settles fun bytes => ?_
    refine (reads_orFail _ _).settles fun script => ?_
    refine (reads_messageOf message?).settles fun message => ?_
    simp only [Task.traceReport_eq]
    refine settles_limitsOf source fun limits => ?_
    exact (writes_logged _).bind ((writes_printAll _).bind (writes_print _))
  | hash algorithm value? =>
    refine (reads_bytesOf value?).settles fun value => ?_
    refine (reads_digestOf algorithm value).settles fun digest => ?_
    exact (writes_print _).settles
  | keygen =>
    show Settles surroundings
      (orFail Failure.generating (Key.Pair.generate surroundings.candidates) >>=
        fun pair => printAll pair.lines) _
    refine (reads_orFail _ _).settles fun pair => ?_
    exact (writes_printAll _).settles
  | publicKey key =>
    refine (reads_orFail_id _).settles fun key => ?_
    refine (reads_orFail _ _).settles fun pair => ?_
    exact (writes_print _).settles
  | sign key message =>
    refine (reads_orFail_id _).settles fun key => ?_
    refine (reads_orFail_id _).settles fun message => ?_
    refine (reads_orFail _ _).settles fun signature => ?_
    exact (writes_print _).settles

end

end Session

/-! ## Whole commands -/

namespace Outcome

/-- A failure with nothing written, or a good end with what is reported. -/
def ofReport : Except Failure Transcript → Outcome
  | .error failure => ⟨.error failure, {}⟩
  | .ok transcript => ⟨.ok (), transcript⟩

/-- The command fails only if the task cannot be read.  Otherwise it ends well, whatever the verdict
is, and the verdict is on its last line. -/
structure Concludes (outcome : Outcome) (reading : Except Failure Task)
    (verdict : Task → Machine.Verdict) : Prop where
  result : outcome.result = reading.map fun _ => ()
  last : ∀ task, reading = .ok task →
    outcome.transcript.lines.getLast? = some (verdict task).text

theorem concludes_ofReport {reading : Except Failure Task} {verdict : Task → Machine.Verdict}
    {report : Task → Transcript}
    (h : ∀ task, (report task).lines.getLast? = some (verdict task).text) :
    (ofReport (reading >>= fun task => .ok (report task))).Concludes reading verdict := by
  constructor
  · cases reading <;> rfl
  · rintro task rfl
    exact h task

end Outcome

theorem carryOut_eq (surroundings : Surroundings) (invocation : Invocation) :
    carryOut surroundings invocation =
      .ofReport (Request.ofInvocation invocation >>= Request.report surroundings) := by
  unfold carryOut
  cases Request.ofInvocation invocation with
  | error failure => rfl
  | ok request =>
    have hsettles : Session.Settles surroundings (Session.perform request)
        (request.report surroundings) := Session.settles_perform request
    show Outcome.mk ((Session.perform request).outcome surroundings {}).1
      ((Session.perform request).outcome surroundings {}).2 =
        .ofReport (request.report surroundings)
    rw [hsettles {}]
    cases request.report surroundings with
    | error failure => rfl
    | ok added =>
      show Outcome.mk (.ok ()) (Transcript.append {} added) = ⟨.ok (), added⟩
      rw [Transcript.empty_append]

theorem carryOut_of_request {surroundings : Surroundings} {invocation : Invocation}
    {request : Request} (h : Request.ofInvocation invocation = .ok request) :
    carryOut surroundings invocation = .ofReport (request.report surroundings) := by
  rw [carryOut_eq, h]
  rfl

theorem transcript_of_result_error {surroundings : Surroundings} {invocation : Invocation}
    {failure : Failure} (h : (carryOut surroundings invocation).result = .error failure) :
    (carryOut surroundings invocation).transcript = {} := by
  rw [carryOut_eq] at h ⊢
  cases hreport : Request.ofInvocation invocation >>= Request.report surroundings with
  | error failure => rfl
  | ok transcript =>
    rw [hreport] at h
    cases h

/-- A command that fails has written nothing.  A script that is rejected is no failure: what can
fail is to read the task, and once it is read the command ends well with the verdict on its last
line. -/
theorem failed_command_leaves_nothing (surroundings : Surroundings) (invocation : Invocation) :
    (∀ failure, (carryOut surroundings invocation).result = .error failure →
      (carryOut surroundings invocation).transcript = {} ∧
      ∀ specification?, (complete surroundings specification? invocation).output = "") ∧
    (∀ lock unlock? params message? source,
      Request.ofInvocation invocation = .ok (.execute lock unlock? params message? source) →
      (carryOut surroundings invocation).Concludes
        (executeRead surroundings lock unlock? params message? source)
        fun task => (Machine.unlock task.context task.unlocking task.params task.script).1) ∧
    (∀ script? message? source,
      Request.ofInvocation invocation = .ok (.trace script? message? source) →
      (carryOut surroundings invocation).Concludes
        (traceRead surroundings script? message? source)
        fun task => (Machine.trace task.context task.script).1.verdict) := by
  refine ⟨fun failure hresult => ?_, fun lock unlock? params message? source hrequest => ?_,
    fun script? message? source hrequest => ?_⟩
  · have htranscript := transcript_of_result_error hresult
    refine ⟨htranscript, fun specification? => ?_⟩
    simp only [complete, hresult, htranscript]
    rfl
  · rw [carryOut_of_request hrequest]
    show (Outcome.ofReport (executeRead surroundings lock unlock? params message? source >>=
      fun task => .ok task.unlockReport)).Concludes _ _
    exact Outcome.concludes_ofReport Task.getLast?_unlockReport
  · rw [carryOut_of_request hrequest]
    show (Outcome.ofReport (traceRead surroundings script? message? source >>=
      fun task => .ok task.traceReport)).Concludes _ _
    exact Outcome.concludes_ofReport Task.getLast?_traceReport

/-- A script that is rejected, and the same command with a ceiling that is no number. -/
theorem rejection_is_printed :
    let execute (ceiling : String) : Invocation :=
      ⟨0, some ("execute", { given := [("lock", "80"), ("max-steps", ceiling)] })⟩
    (carryOut {} (execute "9")).result = .ok () ∧
    (carryOut {} (execute "9")).transcript.lines.getLast? = some "Rejected: Stack underflow" ∧
    (carryOut {} (execute "x")).result = .error (.ceiling .steps) ∧
    (carryOut {} (execute "x")).transcript = {} := by
  intro execute
  let source (ceiling : String) : LimitSource :=
    Request.limitsOf { given := [("lock", "80"), ("max-steps", ceiling)] }
  have hdecode : Script.decode [0x80] = .ok [.chksig] := Script.decode_of_encode rfl
  have hscript : scriptRead Failure.lockScript [0x80] = .ok [.chksig] := by
    rw [scriptRead, hdecode]
    rfl
  have hbytes : readHex "80" = .ok [0x80] := rfl
  have hread : executeRead {} "80" none [] none (source "9") =
      .ok { context := { limits := { maxSteps := 9 } }, script := [.chksig] } := by
    simp only [executeRead, hbytes, hscript, bind, Except.bind]
    rfl
  have hunread : executeRead {} "80" none [] none (source "x") = .error (.ceiling .steps) := by
    simp only [executeRead, hbytes, hscript, bind, Except.bind]
    rfl
  have hnine := (failed_command_leaves_nothing {} (execute "9")).2.1 "80" none [] none _ rfl
  have hx := (failed_command_leaves_nothing {} (execute "x")).2.1 "80" none [] none _ rfl
  have hended : (carryOut {} (execute "9")).result = .ok () := by
    rw [hnine.result, hread]
    rfl
  have hfailed : (carryOut {} (execute "x")).result = .error (.ceiling .steps) := by
    rw [hx.result, hunread]
    rfl
  exact ⟨hended, (hnine.last _ hread).trans (by decide), hfailed,
    ((failed_command_leaves_nothing {} (execute "x")).1 _ hfailed).1⟩

end Command
end LockScript
