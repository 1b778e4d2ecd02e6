import LockScript.Log.Filter

/-!
Which directive decides about a record.

A filter sorts its directives by the size of their names and takes the last one that covers a
target.  The sort leaves directives of one size in the order in which they were given, and of two
names of one size at most one begins a target.  So the longest name decides, and of the directives
with that name the last one given; where those of other names stand makes no difference.

The threshold for all targets is a directive like any other.  It is given first and its name has no
size, so it decides where no other directive covers the target.  And whichever directive decides,
its threshold is not above the widest one, so records above that can be dropped unread.
-/

namespace LockScript
namespace Log

/-! ## The widest threshold -/

namespace Threshold

theorem admits_iff {threshold : Threshold} {level : Level} :
    threshold.admits level = true ↔ level.rank ≤ threshold.rank := decide_eq_true_iff

theorem le_rank_max_iff {n : Nat} {s t : Threshold} :
    n ≤ (max s t).rank ↔ n ≤ s.rank ∨ n ≤ t.rank := by
  unfold max
  split <;> omega

theorem le_rank_foldl_max_iff {n : Nat} {start : Threshold} {thresholds : List Threshold} :
    n ≤ (thresholds.foldl max start).rank ↔ n ≤ start.rank ∨ ∃ t ∈ thresholds, n ≤ t.rank := by
  induction thresholds generalizing start with
  | nil => simp
  | cons t thresholds ih =>
    rw [List.foldl_cons, ih, le_rank_max_iff, or_assoc]
    simp

theorem rank_injective {s t : Threshold} (h : s.rank = t.rank) : s = t := by
  cases s with
  | off =>
    cases t with
    | off => rfl
    | upTo level => cases level <;> cases h
  | upTo level =>
    cases t with
    | off => cases level <;> cases h
    | upTo other => cases level <;> cases other <;> simp [rank, Level.rank] at h ⊢

end Threshold

namespace Filter

theorem le_rank_maxThreshold_iff {n : Nat} {filter : Filter} :
    n ≤ filter.maxThreshold.rank ↔ n = 0 ∨ ∃ d ∈ filter.directives, n ≤ d.threshold.rank := by
  have hoff : n ≤ Threshold.off.rank ↔ n = 0 := Nat.le_zero
  rw [maxThreshold, Threshold.le_rank_foldl_max_iff, hoff]
  refine or_congr_right ?_
  constructor
  · intro hwide
    obtain ⟨t, ht, hle⟩ := hwide
    obtain ⟨d, hd, rfl⟩ := List.mem_map.1 ht
    exact ⟨d, hd, hle⟩
  · intro hwide
    obtain ⟨d, hd, hle⟩ := hwide
    exact ⟨d.threshold, List.mem_map_of_mem hd, hle⟩

theorem rank_maxThreshold_le {filter filter' : Filter}
    (h : ∀ d ∈ filter.directives, d ∈ filter'.directives) :
    filter.maxThreshold.rank ≤ filter'.maxThreshold.rank := by
  rw [le_rank_maxThreshold_iff]
  rcases le_rank_maxThreshold_iff.1 (Nat.le_refl filter.maxThreshold.rank) with hzero | hwidest
  · exact .inl hzero
  · obtain ⟨d, hd, hle⟩ := hwidest
    exact .inr ⟨d, h d hd, hle⟩

end Filter

/-! ## Names -/

namespace Directive

theorem weight_eq_of_name? {d e : Directive} (h : d.name? = e.name?) : d.weight = e.weight := by
  rw [weight, weight, h]

theorem covers_eq_of_name? {d e : Directive} (h : d.name? = e.name?) (target : String) :
    d.covers target = e.covers target := by
  rw [covers, covers, h]

theorem covers_eq_false {d : Directive} {name target : String} (hname : d.name? = some name)
    (h : ¬ name.toList <+: target.toList) : d.covers target = false := by
  rw [covers, hname, Bool.eq_false_iff]
  exact mt List.isPrefixOf_iff_prefix.1 h

/-- Of the names of one size, only one begins a text. -/
theorem eq_of_begins {a b : String} {text : List Char} (ha : a.toList <+: text)
    (hb : b.toList <+: text) (hsize : a.utf8ByteSize = b.utf8ByteSize) : a = b := by
  have hlonger : ∀ {a b : String}, a.toList <+: b.toList → a.utf8ByteSize = b.utf8ByteSize →
      a = b := by
    intro a b hbegins hsize
    obtain ⟨rest, hrest⟩ := hbegins
    have hb : b = a ++ String.ofList rest := by
      rw [← String.toList_inj, String.toList_append, String.toList_ofList, hrest]
    rw [hb, String.utf8ByteSize_append] at hsize
    have hnone : String.ofList rest = "" := String.utf8ByteSize_eq_zero_iff.1 (by omega)
    rw [hb, hnone, String.append_empty]
  rcases List.prefix_or_prefix_of_prefix ha hb with hbegins | hbegins
  · exact hlonger hbegins hsize
  · exact (hlonger hbegins hsize.symm).symm

theorem name?_eq_of_covers {d e : Directive} {target : String} (hd : d.covers target = true)
    (he : e.covers target = true) (hweight : d.weight = e.weight) (hdname : d.name? ≠ some "")
    (hename : e.name? ≠ some "") : d.name? = e.name? := by
  unfold covers at hd he
  unfold weight at hweight
  cases hdn : d.name? with
  | none =>
    cases hen : e.name? with
    | none => rfl
    | some name =>
      rw [hdn, hen] at hweight
      obtain rfl := String.utf8ByteSize_eq_zero_iff.1 hweight.symm
      exact absurd hen hename
  | some name =>
    cases hen : e.name? with
    | none =>
      rw [hdn, hen] at hweight
      obtain rfl := String.utf8ByteSize_eq_zero_iff.1 hweight
      exact absurd hdn hdname
    | some other =>
      rw [hdn] at hd hweight
      rw [hen] at he hweight
      have hname := List.isPrefixOf_iff_prefix.1 hd
      have hother := List.isPrefixOf_iff_prefix.1 he
      rw [eq_of_begins hname hother hweight]

end Directive

/-! ## The sort -/

/-- The directives of a filter in the order in which they were given. -/
def given (threshold : Threshold) (directives : List Directive) : List Directive :=
  ⟨none, threshold⟩ :: directives

namespace Filter

variable {threshold : Threshold} {specification : Specification} {target : String}

theorem weight_trans (a b c : Directive) (hab : decide (a.weight ≤ b.weight) = true)
    (hbc : decide (b.weight ≤ c.weight) = true) : decide (a.weight ≤ c.weight) = true := by
  rw [decide_eq_true_eq] at hab hbc ⊢
  omega

theorem weight_total (a b : Directive) :
    (decide (a.weight ≤ b.weight) || decide (b.weight ≤ a.weight)) = true := by
  rw [Bool.or_eq_true, decide_eq_true_eq, decide_eq_true_eq]
  omega

theorem perm_directives (threshold : Threshold) (specification : Specification) :
    (ofSpecification threshold specification).directives.Perm
      (given threshold specification.directives) :=
  List.mergeSort_perm _ _

theorem pairwise_directives (threshold : Threshold) (specification : Specification) :
    (ofSpecification threshold specification).directives.Pairwise
      fun a b => decide (a.weight ≤ b.weight) = true :=
  List.pairwise_mergeSort weight_trans weight_total _

/-- Directives of one name come out of the sort in the order in which they were given. -/
theorem filter_directives (threshold : Threshold) (specification : Specification)
    (name? : Option String) :
    (ofSpecification threshold specification).directives.filter (·.name? = name?) =
      (given threshold specification.directives).filter (·.name? = name?) := by
  have hsorted : ((given threshold specification.directives).filter (·.name? = name?)).Pairwise
      fun a b => decide (a.weight ≤ b.weight) = true := by
    rw [List.pairwise_iff_forall_sublist]
    intro a b hsublist
    have ha := List.mem_filter.1 (hsublist.subset (by simp : a ∈ [a, b]))
    have hb := List.mem_filter.1 (hsublist.subset (by simp : b ∈ [a, b]))
    have hname : a.name? = b.name? := (of_decide_eq_true ha.2).trans (of_decide_eq_true hb.2).symm
    exact decide_eq_true (Nat.le_of_eq (Directive.weight_eq_of_name? hname))
  have hsublist := List.sublist_mergeSort weight_trans weight_total hsorted List.filter_sublist
  have hkept := hsublist.filter (·.name? = name?)
  rw [List.filter_filter] at hkept
  simp only [Bool.and_self] at hkept
  have hlength := ((perm_directives threshold specification).filter (·.name? = name?)).length_eq
  exact (hkept.eq_of_length hlength.symm).symm

/-! ## The deciding directive -/

/-- The directive covers the target, none that covers it has a longer name, and of those with its
name it was given last. -/
structure Decides (directives : List Directive) (target : String) (d : Directive) : Prop where
  covers : d.covers target = true
  heaviest : ∀ e ∈ directives, e.covers target = true → e.weight ≤ d.weight
  last : (directives.filter (·.name? = d.name?)).getLast? = some d

theorem Decides.mem {directives : List Directive} {d : Directive}
    (h : Decides directives target d) : d ∈ directives :=
  (List.mem_filter.1 (List.mem_of_getLast? h.last)).1

theorem Decides.unique {directives : List Directive} {d e : Directive}
    (hd : Decides directives target d) (he : Decides directives target e)
    (hnames : ∀ d ∈ directives, d.name? ≠ some "") : d = e := by
  have hweight : d.weight = e.weight :=
    Nat.le_antisymm (he.heaviest d hd.mem hd.covers) (hd.heaviest e he.mem he.covers)
  have hname := Directive.name?_eq_of_covers hd.covers he.covers hweight (hnames d hd.mem)
    (hnames e he.mem)
  have hlast := hd.last
  rw [hname, he.last] at hlast
  exact (Option.some.inj hlast).symm

theorem decides_of_deciding? {d : Directive}
    (h : (ofSpecification threshold specification).deciding? target = some d) :
    Decides (given threshold specification.directives) target d := by
  obtain ⟨hcovers, behind, before, hsplit, hbehind⟩ := List.find?_eq_some_iff_append.1 h
  have hdirectives : (ofSpecification threshold specification).directives =
      before.reverse ++ d :: behind.reverse := by
    rw [← List.reverse_inj, hsplit]
    simp
  have hsorted := pairwise_directives threshold specification
  have hnone : ∀ e ∈ behind.reverse, e.covers target = false := by
    intro e he
    simpa using hbehind e (List.mem_reverse.1 he)
  refine ⟨hcovers, ?_, ?_⟩
  · intro e he hecovers
    have hmem := (perm_directives threshold specification).mem_iff.2 he
    rw [hdirectives, List.mem_append, List.mem_cons] at hmem
    rw [hdirectives, List.pairwise_append] at hsorted
    rcases hmem with hbefore | rfl | hlater
    · exact of_decide_eq_true (hsorted.2.2 e hbefore d List.mem_cons_self)
    · exact Nat.le_refl _
    · rw [hnone e hlater] at hecovers
      cases hecovers
  · -- a later directive of the same name would cover the target as well
    have hlater : behind.reverse.filter (·.name? = d.name?) = [] := by
      rw [List.filter_eq_nil_iff]
      intro e he hname
      have hecovers := Directive.covers_eq_of_name? (of_decide_eq_true hname) target
      rw [hnone e he, hcovers] at hecovers
      cases hecovers
    rw [← filter_directives, hdirectives, List.filter_append, List.filter_cons_of_pos (by simp),
      hlater, List.getLast?_append]
    rfl

theorem exists_decides (threshold : Threshold) (specification : Specification) (target : String) :
    ∃ d, Decides (given threshold specification.directives) target d ∧
      ∀ level, (ofSpecification threshold specification).enabled level target =
        d.threshold.admits level := by
  cases hfound : (ofSpecification threshold specification).deciding? target with
  | some d =>
    refine ⟨d, decides_of_deciding? hfound, ?_⟩
    intro level
    rw [enabled, hfound]
  | none =>
    -- the directive for all targets is among them
    have hmem : ⟨none, threshold⟩ ∈ (ofSpecification threshold specification).directives.reverse := by
      rw [List.mem_reverse, (perm_directives threshold specification).mem_iff]
      exact List.mem_cons_self
    exact absurd rfl (List.find?_eq_none.1 hfound _ hmem)

theorem enabled_of_decides {d : Directive} {level : Level}
    (hnames : ∀ d ∈ specification.directives, d.name? ≠ some "")
    (h : Decides (given threshold specification.directives) target d) :
    (ofSpecification threshold specification).enabled level target = d.threshold.admits level := by
  obtain ⟨found, hfound, henabled⟩ := exists_decides threshold specification target
  have hgiven : ∀ d ∈ given threshold specification.directives, d.name? ≠ some "" := by
    intro d hmem
    rcases List.mem_cons.1 hmem with rfl | hmem
    · intro hname
      cases hname
    · exact hnames d hmem
  rw [henabled, hfound.unique h hgiven]

/-! ## Directives in another order -/

/-- Only directives of different names have changed places: those of any one name are the same and
in the same order. -/
def Reordered (directives directives' : List Directive) : Prop :=
  ∀ name?, directives'.filter (·.name? = name?) = directives.filter (·.name? = name?)

theorem Reordered.cons {directives directives' : List Directive}
    (h : Reordered directives directives') (d : Directive) :
    Reordered (d :: directives) (d :: directives') := by
  intro name?
  rw [List.filter_cons, List.filter_cons, h name?]

theorem Reordered.mem_iff {directives directives' : List Directive}
    (h : Reordered directives directives') {d : Directive} : d ∈ directives' ↔ d ∈ directives := by
  have hmem : ∀ {directives : List Directive},
      d ∈ directives ↔ d ∈ directives.filter (·.name? = d.name?) := by
    intro directives
    simp [List.mem_filter]
  rw [hmem, h, ← hmem]

theorem Reordered.decides {directives directives' : List Directive}
    (h : Reordered directives directives') {d : Directive} (hd : Decides directives' target d) :
    Decides directives target d := by
  refine ⟨hd.covers, ?_, ?_⟩
  · intro e he
    exact hd.heaviest e (h.mem_iff.2 he)
  · rw [← h]
    exact hd.last

/-- Where no name is given twice, any order is as good as another. -/
theorem reordered_of_perm {directives directives' : List Directive}
    (hperm : directives.Perm directives') (hnames : (directives.map Directive.name?).Nodup) :
    Reordered directives directives' := by
  intro name?
  have hfound := hperm.filter (·.name? = name?)
  have hdistinct : ((directives.filter (·.name? = name?)).map Directive.name?).Nodup :=
    hnames.sublist (List.filter_sublist.map Directive.name?)
  have hname : ∀ d ∈ directives.filter (·.name? = name?), d.name? = name? := by
    intro d hd
    exact of_decide_eq_true (List.mem_filter.1 hd).2
  generalize directives.filter (·.name? = name?) = found at hfound hdistinct hname ⊢
  cases found with
  | nil => exact hfound.nil_eq.symm
  | cons d rest =>
    cases rest with
    | nil => exact List.perm_singleton.1 hfound.symm
    | cons e rest =>
      have hne : d.name? ≠ e.name? := by
        intro hsame
        simp [hsame] at hdistinct
      exact absurd ((hname d (by simp)).trans (hname e (by simp)).symm) hne

/-! ## What is let through -/

section

variable {level : Level}

theorem rank_le_of_enabled
    (h : (ofSpecification threshold specification).enabled level target = true) :
    level.rank ≤ (ofSpecification threshold specification).maxThreshold.rank := by
  obtain ⟨d, hd, henabled⟩ := exists_decides threshold specification target
  rw [henabled, Threshold.admits_iff] at h
  have hmem := (perm_directives threshold specification).mem_iff.2 hd.mem
  exact le_rank_maxThreshold_iff.2 (.inr ⟨d, hmem, h⟩)

theorem enabled_of_uncovered (h : ∀ d ∈ specification.directives, d.covers target = false) :
    (ofSpecification threshold specification).enabled level target = threshold.admits level := by
  obtain ⟨d, hd, henabled⟩ := exists_decides threshold specification target
  rw [henabled]
  rcases List.mem_cons.1 hd.mem with rfl | hmem
  · rfl
  · have hcovers := hd.covers
    rw [h d hmem] at hcovers
    cases hcovers

theorem enabled_of_reordered {directives' : List Directive}
    (hnames : ∀ d ∈ specification.directives, d.name? ≠ some "")
    (h : Reordered specification.directives directives') :
    (ofSpecification threshold { specification with directives := directives' }).enabled level
        target = (ofSpecification threshold specification).enabled level target := by
  obtain ⟨d, hd, henabled⟩ :=
    exists_decides threshold { specification with directives := directives' } target
  rw [henabled, enabled_of_decides hnames ((h.cons ⟨none, threshold⟩).decides hd)]

theorem maxThreshold_of_reordered {directives' : List Directive}
    (h : Reordered specification.directives directives') :
    (ofSpecification threshold { specification with directives := directives' }).maxThreshold =
      (ofSpecification threshold specification).maxThreshold := by
  have hmem : ∀ d,
      d ∈ (ofSpecification threshold { specification with directives := directives' }).directives ↔
        d ∈ (ofSpecification threshold specification).directives := by
    intro d
    rw [(perm_directives _ _).mem_iff, (perm_directives _ _).mem_iff]
    exact (h.cons ⟨none, threshold⟩).mem_iff
  apply Threshold.rank_injective
  apply Nat.le_antisymm
  · exact rank_maxThreshold_le fun d => (hmem d).1
  · exact rank_maxThreshold_le fun d => (hmem d).2

end

end Filter

/-! ## What is printed -/

theorem exists_printed (threshold : Threshold) (specification : Specification)
    (records : List Record) :
    ∃ printed : List Record, printed.Sublist records ∧
      lines threshold specification records = specification.warnings ++ printed.map Record.line ∧
      (∀ record ∈ printed,
        (Filter.ofSpecification threshold specification).enabled record.level record.target = true) ∧
      (specification.pattern? = none → printed = records.filter fun record =>
        (Filter.ofSpecification threshold specification).enabled record.level record.target) := by
  refine ⟨records.filter (Filter.ofSpecification threshold specification).prints,
    List.filter_sublist, rfl, ?_, ?_⟩
  · intro record hrecord
    have hprints := (List.mem_filter.1 hrecord).2
    rw [Filter.prints, Bool.and_eq_true] at hprints
    exact hprints.1
  · intro hpattern
    have hnone : (Filter.ofSpecification threshold specification).pattern? = none := hpattern
    refine List.filter_congr ?_
    intro record _
    rw [Filter.prints, hnone]
    exact Bool.and_true _

/-- The records that are handed on when those above a threshold are dropped unread. -/
def handedOn (threshold : Threshold) (records : List Record) : List Record :=
  records.filter fun record => threshold.admits record.level

theorem lines_handedOn (threshold : Threshold) (specification : Specification)
    (records : List Record) :
    lines threshold specification
        (handedOn (Filter.ofSpecification threshold specification).maxThreshold records) =
      lines threshold specification records := by
  unfold lines handedOn
  dsimp only
  rw [List.filter_filter]
  congr 2
  refine List.filter_congr ?_
  intro record _
  cases hprints : (Filter.ofSpecification threshold specification).prints record with
  | false => rfl
  | true =>
    rw [Bool.true_and, Threshold.admits_iff]
    rw [Filter.prints, Bool.and_eq_true] at hprints
    exact Filter.rank_le_of_enabled hprints.1

/-- No record that is let through is lost.  The widest threshold does not hide it, so what is above
that can be dropped beforehand without changing a line.  Only such records are printed, and all of
them if no pattern is asked for.  A target that no directive is about keeps the threshold for all,
and directives of different names may change places. -/
theorem enabled_records_kept (threshold : Threshold) (specification : Specification) :
    let filter := Filter.ofSpecification threshold specification
    (∀ level target, filter.enabled level target = true →
      level.rank ≤ filter.maxThreshold.rank) ∧
    (∀ records, lines threshold specification (handedOn filter.maxThreshold records) =
      lines threshold specification records) ∧
    (∀ records, ∃ printed : List Record, printed.Sublist records ∧
      lines threshold specification records = specification.warnings ++ printed.map Record.line ∧
      (∀ record ∈ printed, filter.enabled record.level record.target = true) ∧
      (specification.pattern? = none →
        printed = records.filter fun record => filter.enabled record.level record.target)) ∧
    (∀ level target,
      (∀ d ∈ specification.directives,
        ∃ name, d.name? = some name ∧ ¬ name.toList <+: target.toList) →
      (filter.enabled level target = true ↔ level.rank ≤ threshold.rank)) ∧
    ((∀ d ∈ specification.directives, d.name? ≠ some "") →
      ∀ directives', Filter.Reordered specification.directives directives' →
        let filter' :=
          Filter.ofSpecification threshold { specification with directives := directives' }
        filter'.maxThreshold = filter.maxThreshold ∧
          ∀ level target, filter'.enabled level target = filter.enabled level target) ∧
    ∀ directives', specification.directives.Perm directives' →
      (specification.directives.map Directive.name?).Nodup →
      Filter.Reordered specification.directives directives' := by
  intro filter
  refine ⟨fun _ _ => Filter.rank_le_of_enabled, lines_handedOn threshold specification,
    exists_printed threshold specification, ?_, ?_, fun _ => Filter.reordered_of_perm⟩
  · intro level target hnames
    rw [Filter.enabled_of_uncovered, Threshold.admits_iff]
    intro d hd
    obtain ⟨name, hname, hbegins⟩ := hnames d hd
    exact Directive.covers_eq_false hname hbegins
  · intro hnames directives' hreordered
    exact ⟨Filter.maxThreshold_of_reordered hreordered,
      fun level target => Filter.enabled_of_reordered hnames hreordered⟩

/-- The later of two directives for one name decides, whatever stands between them, and a target that
no name begins keeps the threshold for all. -/
theorem enabled_records_kept_vm :
    let directives : List Directive :=
      [⟨some "vm", .upTo .trace⟩, ⟨some "vmx", .off⟩, ⟨some "vm", .upTo .debug⟩]
    let directives' : List Directive :=
      [⟨some "vm", .upTo .trace⟩, ⟨some "vm", .upTo .debug⟩, ⟨some "vmx", .off⟩]
    let filter := Filter.ofSpecification (.upTo .warn) { directives }
    let filter' := Filter.ofSpecification (.upTo .warn) { directives := directives' }
    (filter.enabled .debug "vm" = true ∧ Level.debug.rank ≤ filter.maxThreshold.rank) ∧
    (filter.enabled .trace "vm" = false ∧ filter'.enabled .trace "vm" = false) ∧
    filter.enabled .warn "tool" = true ∧
    lines (.upTo .warn) { directives } [⟨.trace, "vm", "a"⟩, ⟨.debug, "vm", "b"⟩] =
      [Record.line ⟨.debug, "vm", "b"⟩] ∧
    Filter.Reordered [⟨some "vm", .off⟩, ⟨none, .off⟩] [⟨none, .off⟩, ⟨some "vm", .off⟩] := by
  intro directives directives' filter filter'
  obtain ⟨hwidest, -, hlines, helsewhere, hreorder, -⟩ :=
    enabled_records_kept (.upTo .warn) { directives }
  have hnames : ∀ d ∈ directives, d.name? ≠ some "" := by decide
  have hvm : ∀ level, filter.enabled level "vm" = (Threshold.upTo .debug).admits level := by
    intro level
    exact Filter.enabled_of_decides (d := ⟨some "vm", .upTo .debug⟩) hnames
      ⟨by decide, by decide, by decide⟩
  have hplaces : Filter.Reordered directives directives' := by
    intro name?
    by_cases hname : some "vmx" = name?
    · subst hname
      rfl
    · simp [directives, directives', List.filter_cons, hname]
  obtain ⟨-, hsame⟩ := hreorder hnames directives' hplaces
  obtain ⟨printed, -, hprinted, -, hall⟩ := hlines [⟨.trace, "vm", "a"⟩, ⟨.debug, "vm", "b"⟩]
  refine ⟨⟨hvm .debug, hwidest _ _ (hvm .debug)⟩, ⟨hvm .trace, (hsame _ _).trans (hvm .trace)⟩,
    ?_, ?_, ?_⟩
  · refine (helsewhere .warn "tool" ?_).2 (Nat.le_refl _)
    intro d hd
    simp only [directives, List.mem_cons, List.not_mem_nil, or_false] at hd
    rcases hd with rfl | rfl | rfl
    · exact ⟨"vm", rfl, by decide⟩
    · exact ⟨"vmx", rfl, by decide⟩
    · exact ⟨"vm", rfl, by decide⟩
  · have hfilter : printed =
        List.filter (fun record : Record => filter.enabled record.level record.target)
          [⟨.trace, "vm", "a"⟩, ⟨.debug, "vm", "b"⟩] := hall rfl
    rw [hprinted, hfilter, List.filter_cons_of_neg (by rw [hvm]; decide),
      List.filter_cons_of_pos (by rw [hvm]; decide)]
    rfl
  · exact (enabled_records_kept .off ⟨[⟨some "vm", .off⟩, ⟨none, .off⟩], none, []⟩).2.2.2.2.2 _
      (by decide) (by decide)

end Log
end LockScript
