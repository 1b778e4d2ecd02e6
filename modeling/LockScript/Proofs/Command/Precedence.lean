import LockScript.Proofs.Command.Report
import LockScript.Proofs.Settings.Section
import LockScript.Proofs.Text.Decimal

/-!
Where each ceiling comes from.

An option goes before the settings file and the file before the standard, for each of the four
ceilings by itself.  `Takes` says so of one ceiling, and `Layered` names the option, the setting and
the standard of each.  The reader of options stops at the first one that is no number, in the fixed
order of the ceilings and not in the order in which they were given.
-/

namespace LockScript
namespace Command

open Machine (Ceiling Limits)
open Text.Decimal (Denotes)

/-! ## The three layers -/

/-- What a command finds set in a file: nothing if it is given none. -/
inductive Finds (surroundings : Surroundings) : Option String → (Ceiling → Option Nat) → Prop where
  | nothing : Finds surroundings none fun _ => none
  | file {path : String} {bytes : Bytes} {text : String} {table : Ceiling → Option Nat}
      (hfile : surroundings.fileAt path = .ok bytes) (htext : decodeText? bytes = some text)
      (htable : Settings.read? text = some table) : Finds surroundings (some path) table

/-- The options that set ceilings, in the order in which they are read. -/
def ceilingOptions : List String :=
  ["max-memory", "max-steps", "max-stack-depth", "max-value-size"]

/-- The option is left out, or its text is a number that fits into 64 bits. -/
def Fits (text? : Option String) : Prop :=
  ∀ text ∈ text?, ∃ n, Denotes text n ∧ n < UInt64.size

/-- What a ceiling comes to, from the text of its option, its setting in the file and its
standard. -/
inductive Takes : Option String → Option Nat → Nat → Nat → Prop where
  | option {text : String} {n : Nat} (setting? : Option Nat) (standard : Nat)
      (h : Denotes text n) : Takes (some text) setting? standard n
  | setting (n standard : Nat) : Takes none (some n) standard n
  | standard (n : Nat) : Takes none none n n

structure Layered (found : Found) (table : Ceiling → Option Nat) (limits : Limits) : Prop where
  memory : Takes (found.value? "max-memory") (table .memory) 1024 limits.maxMemory
  steps : Takes (found.value? "max-steps") (table .steps) 1000 limits.maxSteps
  stackDepth : Takes (found.value? "max-stack-depth") (table .stackDepth) 256 limits.maxStackDepth
  valueSize : Takes (found.value? "max-value-size") (table .valueSize) 512 limits.maxValueSize

def zeroWarning (name : String) (limit : Nat) : List Log.Record :=
  if limit = 0 then [.from .tool .warn ("VM limit " ++ name ++ " is 0")] else []

/-- What is recorded about limits: all of them, and behind that each one that is zero. -/
def limitReport (limits : Limits) : List Log.Record :=
  .from .tool .debug ("VM limits: " ++ limits.inspect) ::
    (zeroWarning "max_memory" limits.maxMemory ++ zeroWarning "max_steps" limits.maxSteps ++
      zeroWarning "max_stack_depth" limits.maxStackDepth ++
      zeroWarning "max_value_size" limits.maxValueSize)

theorem fits_iff {text? : Option String} :
    Fits text? ↔ ∀ text ∈ text?, (Text.Decimal.parse? text).isSome = true := by
  simp only [Fits, Option.isSome_iff_exists, Text.Decimal.parse?_eq_some_iff]

theorem takes_iff {text? : Option String} {setting? : Option Nat} {standard n : Nat}
    (h : Fits text?) :
    Takes text? setting? standard n ↔
      n = (text?.bind Text.Decimal.parse?).getD (setting?.getD standard) := by
  cases text? with
  | none =>
    cases setting? with
    | none =>
      constructor
      · rintro ⟨⟩
        rfl
      · rintro rfl
        exact .standard _
    | some setting =>
      constructor
      · rintro ⟨⟩
        rfl
      · rintro rfl
        exact .setting _ _
  | some text =>
    obtain ⟨m, hm, hlt⟩ := h text rfl
    have hparse : Text.Decimal.parse? text = some m :=
      Text.Decimal.parse?_eq_some_iff.2 ⟨hm, hlt⟩
    rw [Option.bind_some, hparse, Option.getD_some]
    constructor
    · intro htakes
      cases htakes with
      | option _ _ hn => exact hn.unique hm
    · rintro rfl
      exact .option _ _ hm

/-! ## Options -/

theorem readCeilings_cases (texts : Ceiling → Option String) :
    ((∀ ceiling, Fits (texts ceiling)) ∧
      readCeilings texts = .ok fun ceiling => (texts ceiling).bind Text.Decimal.parse?) ∨
    ∃ earlier ceiling later, Ceiling.all = earlier ++ ceiling :: later ∧
      (∀ other ∈ earlier, Fits (texts other)) ∧ ¬ Fits (texts ceiling) ∧
      readCeilings texts = .error ceiling := by
  unfold readCeilings
  extract_lets malformed
  have hfits : ∀ ceiling, malformed ceiling = false ↔ Fits (texts ceiling) := by
    intro ceiling
    dsimp only [malformed]
    rw [fits_iff]
    cases texts ceiling with
    | none => simp
    | some text => simp
  cases hfind : Ceiling.all.find? malformed with
  | none =>
    refine .inl ⟨fun ceiling => (hfits ceiling).1 ?_, rfl⟩
    exact Bool.eq_false_iff.2 (List.find?_eq_none.1 hfind ceiling ceiling.mem_all)
  | some ceiling =>
    obtain ⟨hbad, earlier, later, hall, hgood⟩ := List.find?_eq_some_iff_append.1 hfind
    refine .inr ⟨earlier, ceiling, later, hall, fun other hother => ?_, fun hfit => ?_, rfl⟩
    · exact (hfits other).1 (by simpa using hgood other hother)
    · rw [(hfits ceiling).2 hfit] at hbad
      cases hbad

/-! ## The file -/

theorem settingsRead_of_finds {surroundings : Surroundings} {path? : Option String}
    {table : Ceiling → Option Nat} (h : Finds surroundings path? table) :
    settingsRead surroundings path? = .ok table := by
  cases h with
  | nothing => rfl
  | file hfile htext htable =>
    simp only [settingsRead, hfile, Except.mapError, bind, Except.bind, htext, htable]

theorem decodeText?_of_text (text : String) :
    decodeText? text.toByteArray.data.toList = some text :=
  dif_pos text.isValidUTF8

theorem finds_section {surroundings : Surroundings} {path : String}
    {entries : List (Ceiling × Nat)} (hdistinct : (entries.map Prod.fst).Nodup)
    (hbound : ∀ entry ∈ entries, entry.2 < Settings.Number.bound)
    (hfile : surroundings.fileAt path =
      .ok (Settings.sectionText entries).toByteArray.data.toList) :
    Finds surroundings (some path) fun ceiling => entries.lookup ceiling :=
  .file hfile (decodeText?_of_text _) (Settings.read?_sectionText hdistinct hbound)

/-! ## The limits -/

theorem layered_iff {found : Found} {table : Ceiling → Option Nat} {limits : Limits} :
    Layered found table limits ↔ ∀ ceiling : Ceiling,
      Takes (found.value? ceiling.option) (table ceiling) (Limits.standard.value ceiling)
        (limits.value ceiling) := by
  constructor
  · rintro ⟨hmemory, hsteps, hdepth, hsize⟩ ceiling
    cases ceiling with
    | memory => exact hmemory
    | steps => exact hsteps
    | stackDepth => exact hdepth
    | valueSize => exact hsize
  · intro h
    exact ⟨h .memory, h .steps, h .stackDepth, h .valueSize⟩

theorem layered_iff_eq {found : Found} {table : Ceiling → Option Nat} {limits : Limits}
    (hfits : ∀ ceiling : Ceiling, Fits (found.value? ceiling.option)) :
    Layered found table limits ↔
      limits = (Limits.standard.update table).update fun ceiling =>
        (found.value? ceiling.option).bind Text.Decimal.parse? := by
  rw [layered_iff]
  constructor
  · intro h
    refine Limits.ext_value fun ceiling => ?_
    rw [Limits.value_update, Limits.value_update]
    exact (takes_iff (hfits ceiling)).1 (h ceiling)
  · rintro rfl ceiling
    rw [takes_iff (hfits ceiling), Limits.value_update, Limits.value_update]

namespace Session

/-- All that can fail comes before the first record. -/
theorem outcome_limitsOf (source : LimitSource) (surroundings : Surroundings)
    (before : Transcript) :
    (limitsOf source).outcome surroundings before =
      (limitsRead surroundings source,
        (limitsRead surroundings source).toOption.elim before fun limits =>
          before.append { log := limitRecords limits }) := by
  unfold limitsRead
  rw [limitsOf, outcome_bind, reads_settingsOf _ before]
  cases settingsRead surroundings source.config? with
  | error failure => rfl
  | ok settings =>
    dsimp only
    rw [outcome_bind, reads_orFail _ _ before]
    cases (readCeilings source.texts).mapError Failure.ceiling with
    | error failure => rfl
    | ok options =>
      dsimp only
      rw [outcome_bind, writes_record _ before]
      rfl

theorem limitRecords_eq (limits : Limits) : limitRecords limits = limitReport limits := by
  have hflat : ∀ ceilings : List Ceiling,
      (ceilings.filter fun ceiling => limits.value ceiling == 0).map (fun ceiling =>
        Log.Record.from .tool .warn ("VM limit " ++ ceiling.name ++ " is 0")) =
      ceilings.flatMap fun ceiling => zeroWarning ceiling.name (limits.value ceiling) := by
    intro ceilings
    induction ceilings with
    | nil => rfl
    | cons ceiling ceilings ih =>
      rw [List.flatMap_cons, ← ih, List.filter_cons]
      by_cases hzero : limits.value ceiling = 0
      · simp [zeroWarning, hzero]
      · simp [zeroWarning, hzero]
  rw [limitRecords, Limits.zeros, hflat]
  simp [limitReport, Ceiling.all, Ceiling.name, Limits.value]

end Session

section

variable {surroundings : Surroundings} {found : Found} {table : Ceiling → Option Nat}

theorem forall_mem_ceilingOptions {P : String → Prop} :
    (∀ option ∈ ceilingOptions, P option) ↔ ∀ ceiling : Ceiling, P ceiling.option := by
  show (∀ option ∈ Ceiling.all.map Ceiling.option, P option) ↔ _
  rw [List.forall_mem_map]
  exact ⟨fun h ceiling => h ceiling ceiling.mem_all, fun h ceiling _ => h ceiling⟩

theorem limitsRead_of_finds (h : Finds surroundings (found.value? "config") table) :
    limitsRead surroundings (Request.limitsOf found) =
      ((readCeilings fun ceiling => found.value? ceiling.option).mapError Failure.ceiling).map
        (Limits.standard.update table).update := by
  have hsettings : settingsRead surroundings (Request.limitsOf found).config? = .ok table :=
    settingsRead_of_finds h
  rw [limitsRead, hsettings]
  show (readCeilings fun ceiling => found.value? ceiling.option).mapError Failure.ceiling >>= _ = _
  cases readCeilings fun ceiling => found.value? ceiling.option <;> rfl

theorem outcome_of_readCeilings_ok {numbers : Ceiling → Option Nat}
    (hfinds : Finds surroundings (found.value? "config") table)
    (hread : readCeilings (fun ceiling => found.value? ceiling.option) = .ok numbers)
    (before : Transcript) :
    let limits := (Limits.standard.update table).update numbers
    (Session.limitsOf (Request.limitsOf found)).outcome surroundings before =
      (.ok limits, before.append { log := limitReport limits }) := by
  intro limits
  have hlimits : limitsRead surroundings (Request.limitsOf found) = .ok limits := by
    rw [limitsRead_of_finds hfinds, hread]
    rfl
  rw [Session.outcome_limitsOf, hlimits, ← Session.limitRecords_eq]
  rfl

theorem outcome_of_readCeilings_error {ceiling : Ceiling}
    (hfinds : Finds surroundings (found.value? "config") table)
    (hread : readCeilings (fun ceiling => found.value? ceiling.option) = .error ceiling)
    (before : Transcript) :
    (Session.limitsOf (Request.limitsOf found)).outcome surroundings before =
      (.error (.ceiling ceiling), before) := by
  have hlimits : limitsRead surroundings (Request.limitsOf found) = .error (.ceiling ceiling) := by
    rw [limitsRead_of_finds hfinds, hread]
    rfl
  rw [Session.outcome_limitsOf, hlimits]
  rfl

end

/-- The option of a ceiling goes before the settings file and the file before the standard.  Reading
the limits comes to an end unless an option is no number that fits, and then it stops at the first
such option.  A file with any of the ceilings in its section, in any order, sets just these. -/
theorem limits_by_precedence (surroundings : Surroundings) :
    (∀ path (entries : List (Ceiling × Nat)), (entries.map Prod.fst).Nodup →
      (∀ entry ∈ entries, entry.2 < Settings.Number.bound) →
      surroundings.fileAt path = .ok (Settings.sectionText entries).toByteArray.data.toList →
      Finds surroundings (some path) fun ceiling => entries.lookup ceiling) ∧
    ∀ (found : Found) (table : Ceiling → Option Nat),
      Finds surroundings (found.value? "config") table → ∀ before,
      let outcome := (Session.limitsOf (Request.limitsOf found)).outcome surroundings before
      ((∃ limits, outcome.1 = .ok limits) ↔
        ∀ option ∈ ceilingOptions, Fits (found.value? option)) ∧
      (∀ limits, outcome.1 = .ok limits ↔
        (∀ option ∈ ceilingOptions, Fits (found.value? option)) ∧ Layered found table limits) ∧
      (∀ limits, outcome.1 = .ok limits →
        outcome.2 = before.append { log := limitReport limits }) ∧
      ∀ failure, outcome.1 = .error failure → outcome.2 = before ∧
        ∃ earlier option later, ceilingOptions = earlier ++ option :: later ∧
          (∀ other ∈ earlier, Fits (found.value? other)) ∧ ¬ Fits (found.value? option) ∧
          failure.text = "Invalid " ++ option := by
  refine ⟨fun path entries => finds_section, ?_⟩
  intro found table hfinds before outcome
  rw [forall_mem_ceilingOptions]
  rcases readCeilings_cases fun ceiling => found.value? ceiling.option with
    ⟨hfits, hread⟩ | ⟨earlier, ceiling, later, hall, hgood, hbad, hread⟩
  · have houtcome := outcome_of_readCeilings_ok hfinds hread before
    dsimp only [outcome]
    rw [houtcome]
    refine ⟨⟨fun _ => hfits, fun _ => ⟨_, rfl⟩⟩, fun limits => ?_, ?_, ?_⟩
    · rw [layered_iff_eq hfits, Except.ok.injEq]
      exact ⟨fun h => ⟨hfits, h.symm⟩, fun h => h.2.symm⟩
    · rintro limits ⟨⟩
      rfl
    · rintro failure ⟨⟩
  · have houtcome := outcome_of_readCeilings_error hfinds hread before
    have hunfit : ¬ ∀ ceiling : Ceiling, Fits (found.value? ceiling.option) := fun hfits =>
      hbad (hfits ceiling)
    dsimp only [outcome]
    rw [houtcome]
    refine ⟨⟨?_, fun hfits => absurd hfits hunfit⟩, fun limits => ⟨?_, ?_⟩, ?_, ?_⟩
    · rintro ⟨limits, ⟨⟩⟩
    · rintro ⟨⟩
    · rintro ⟨hfits, -⟩
      exact absurd hfits hunfit
    · rintro limits ⟨⟩
    · rintro failure ⟨⟩
      -- The options stand in the order of their ceilings, so the cut is at the same place.
      refine ⟨rfl, earlier.map Ceiling.option, ceiling.option, later.map Ceiling.option, ?_, ?_,
        hbad, rfl⟩
      · show Ceiling.all.map Ceiling.option = _
        rw [hall, List.map_append, List.map_cons]
      · exact List.forall_mem_map.2 hgood

/-- Each layer decides about a ceiling: the file about two, an option with leading zeros about one
that the file sets too, the standard about the last.  And of two options that are no numbers that
fit, the later one on the line is the first in the order of the ceilings. -/
theorem limits_by_precedence_layers :
    let entries : List (Ceiling × Nat) := [(.valueSize, 0), (.memory, 64), (.steps, 10)]
    let surroundings : Surroundings :=
      { fileAt := fun _ => .ok (Settings.sectionText entries).toByteArray.data.toList }
    let found (options : List (String × String)) : Found :=
      { given := ("config", "vm.toml") :: options }
    let outcome (options : List (String × String)) :=
      (Session.limitsOf (Request.limitsOf (found options))).outcome surroundings {}
    Finds surroundings (some "vm.toml") (fun ceiling => entries.lookup ceiling) ∧
    outcome [("max-steps", "+007")] =
      (.ok ⟨64, 7, 256, 0⟩, { log :=
        [.from .tool .debug ("VM limits: Vm \x7b max_memory: 64, max_steps: 7, " ++
            "max_stack_depth: 256, max_value_size: 0 \x7d"),
          .from .tool .warn "VM limit max_value_size is 0"] }) ∧
    ∃ failure, outcome [("max-value-size", "ten"), ("max-stack-depth", "18446744073709551616")] =
      (.error failure, {}) ∧ failure.text = "Invalid max-stack-depth" := by
  intro entries surroundings found outcome
  obtain ⟨hfile, hmain⟩ := limits_by_precedence surroundings
  have hfinds := hfile "vm.toml" entries (by decide) (by decide) rfl
  have hnone : Fits none := fits_iff.2 (by rintro text ⟨⟩)
  refine ⟨hfinds, ?_, ?_⟩
  · obtain ⟨-, hok, hlog, -⟩ := hmain (found [("max-steps", "+007")]) _ hfinds {}
    have hseven : Denotes "+007" 7 := ⟨[0, 0, 7], by decide, .inr rfl, by decide⟩
    have hfits : ∀ option ∈ ceilingOptions,
        Fits ((found [("max-steps", "+007")]).value? option) := by
      rw [forall_mem_ceilingOptions]
      intro ceiling
      cases ceiling with
      | memory => exact hnone
      | steps => exact fits_iff.2 (by rintro text ⟨⟩; rfl)
      | stackDepth => exact hnone
      | valueSize => exact hnone
    have hended := (hok ⟨64, 7, 256, 0⟩).2 ⟨hfits, .setting 64 1024, .option (some 10) 1000 hseven,
      .standard 256, .setting 0 512⟩
    exact Prod.ext hended ((hlog _ hended).trans rfl)
  · obtain ⟨hends, -, -, hfails⟩ := hmain
      (found [("max-value-size", "ten"), ("max-stack-depth", "18446744073709551616")]) _ hfinds {}
    have hlarge : ¬ Fits (some "18446744073709551616") := fun h =>
      absurd (fits_iff.1 h _ rfl) (by decide)
    cases hresult : (outcome
        [("max-value-size", "ten"), ("max-stack-depth", "18446744073709551616")]).1 with
    | ok limits => exact absurd (hends.1 ⟨limits, hresult⟩ "max-stack-depth" (by decide)) hlarge
    | error failure =>
      obtain ⟨hbefore, earlier, option, later, hsplit, hgood, hbad, htext⟩ := hfails failure hresult
      refine ⟨failure, Prod.ext hresult hbefore, ?_⟩
      -- The four places at which the order can be cut: only at the third is the option unfit and
      -- all before it fit.
      rcases earlier with _ | ⟨first, _ | ⟨second, _ | ⟨third, earlier⟩⟩⟩ <;>
        simp only [ceilingOptions, List.cons_append, List.nil_append, List.cons.injEq] at hsplit
      · obtain ⟨rfl, -⟩ := hsplit
        exact absurd hnone hbad
      · obtain ⟨-, rfl, -⟩ := hsplit
        exact absurd hnone hbad
      · obtain ⟨-, -, rfl, -⟩ := hsplit
        exact htext
      · obtain ⟨-, -, rfl, -⟩ := hsplit
        exact absurd (hgood "max-stack-depth" (by simp)) hlarge

end Command
end LockScript
