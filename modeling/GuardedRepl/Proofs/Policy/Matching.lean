import GuardedRepl.Policy.Filter
import GuardedRepl.Proofs.Text.Pieces
import Mathlib.Data.List.DropRight

/-!
# What a filter denies

Package rules match by segments, class and method rules by equality.  Which rule an entry of the
lists stands for is said here by the form of the entry, and not by the way in which the rule is cut
out of it.

**Results.**
* `packageRule_eq_iff`, `methodRule?_eq_some_iff`: the rules that entries stand for.
* `coversPackage_iff`: a package rule covers what begins with its segments.
* `exactness`: when no filter is built and which entry is blamed, what a filter denies and for which
  reason, and that more entries never deny less.
-/

namespace GuardedRepl

namespace Filter

/-! ### Package rules -/

/-- An entry stands for a package.  Between white space it is the package, which does not end with a
dot, then any number of dots, and then at most one `.*`. -/
def NamesPackage (entry package : String) : Prop :=
  ∃ stem dots,
    (trimmed entry = stem ++ ".*" ∨ trimmed entry = stem ∧ ¬ ['.', '*'] <:+ stem.toList) ∧
    stem.toList = package.toList ++ List.replicate dots '.' ∧ ¬ ['.'] <:+ package.toList

/-- What is left of a text without the dots at its end. -/
theorem rdropWhile_dot_eq_iff (stem package : List Char) :
    stem.rdropWhile (· = '.') = package ↔
      ∃ dots, stem = package ++ List.replicate dots '.' ∧ ¬ ['.'] <:+ package := by
  induction stem using List.reverseRecOn with
  | nil =>
      rw [List.rdropWhile_nil]
      constructor
      · rintro rfl
        exact ⟨0, rfl, by simp⟩
      · rintro ⟨dots, heq, -⟩
        exact (List.append_eq_nil_iff.mp heq.symm).1.symm
  | append_singleton stem c ih =>
      by_cases hc : c = '.'
      · subst hc
        rw [List.rdropWhile_concat_pos _ _ _ (by simp), ih]
        constructor
        · rintro ⟨dots, rfl, hlast⟩
          exact ⟨dots + 1, by rw [List.replicate_succ', List.append_assoc], hlast⟩
        · rintro ⟨dots, heq, hlast⟩
          cases dots with
          | zero => exact absurd ⟨stem, heq.trans (List.append_nil _)⟩ hlast
          | succ dots =>
              rw [List.replicate_succ', ← List.append_assoc] at heq
              exact ⟨dots, List.append_cancel_right heq, hlast⟩
      · rw [List.rdropWhile_concat_neg _ _ _ (by simpa using hc)]
        constructor
        · rintro rfl
          refine ⟨0, (List.append_nil _).symm, fun ⟨front, heq⟩ => hc ?_⟩
          exact (List.singleton_injective (List.append_inj_right' heq rfl)).symm
        · rintro ⟨dots, heq, -⟩
          cases dots with
          | zero => exact heq.trans (List.append_nil _)
          | succ dots =>
              rw [List.replicate_succ', ← List.append_assoc] at heq
              exact absurd (List.append_inj_right' heq rfl) (by simpa using hc)

/-- The rule of a package entry is the package that the entry stands for. -/
theorem packageRule_eq_iff (entry package : String) :
    packageRule entry = package ↔ NamesPackage entry package := by
  have htrimmed : (trimmed entry).toList = Text.trim entry.toList := String.toList_ofList
  have hdots (stem : List Char) : String.ofList (stem.rdropWhile (· = '.')) = package ↔
      ∃ dots, stem = package.toList ++ List.replicate dots '.' ∧ ¬ ['.'] <:+ package.toList := by
    rw [← String.toList_inj, String.toList_ofList, rdropWhile_dot_eq_iff]
  unfold packageRule
  simp only
  split
  · rename_i hstar
    obtain ⟨rest, hrest⟩ := List.isPrefixOf_iff_prefix.mp hstar
    have htext : (trimmed entry).toList = rest.reverse ++ ['.', '*'] := by
      rw [htrimmed, ← List.reverse_reverse (Text.trim entry.toList), ← hrest]
      simp
    rw [← hrest, show (['*', '.'] ++ rest).drop 2 = rest from rfl, ← List.rdropWhile_reverse, hdots]
    constructor
    · rintro ⟨dots, hstem, hlast⟩
      refine ⟨String.ofList rest.reverse, dots, Or.inl ?_, by rwa [String.toList_ofList], hlast⟩
      rw [← String.toList_inj, htext, String.toList_append, String.toList_ofList]
      rfl
    · rintro ⟨stem, dots, hwhole | ⟨hwhole, hnot⟩, hstem, hlast⟩
      · rw [hwhole, String.toList_append] at htext
        exact ⟨dots, (List.append_inj_left' htext rfl).symm.trans hstem, hlast⟩
      · exact absurd ⟨rest.reverse, by rw [← hwhole, htext]⟩ hnot
  · rename_i hstar
    have hnot : ¬ ['.', '*'] <:+ (trimmed entry).toList := by
      rw [htrimmed, ← List.reverse_prefix]
      exact fun h => hstar (List.isPrefixOf_iff_prefix.mpr h)
    rw [show ((Text.trim entry.toList).reverse.dropWhile (· = '.')).reverse =
      (Text.trim entry.toList).rdropWhile (· = '.') from rfl, ← htrimmed, hdots]
    constructor
    · rintro ⟨dots, hstem, hlast⟩
      exact ⟨trimmed entry, dots, Or.inr ⟨rfl, hnot⟩, hstem, hlast⟩
    · rintro ⟨stem, dots, hwhole | ⟨rfl, -⟩, hstem, hlast⟩
      · exact absurd ⟨stem.toList, by rw [hwhole, String.toList_append]; rfl⟩ hnot
      · exact ⟨dots, hstem, hlast⟩

/-- A package rule covers a package exactly if its segments come first in those of the package. -/
theorem coversPackage_iff (rule package : String) :
    coversPackage rule package = true ↔
      rule.toList.splitOn '.' <+: package.toList.splitOn '.' := by
  rw [Text.splitOn_prefix_iff, coversPackage, Bool.and_eq_true, List.isPrefixOf_iff_prefix]
  constructor
  · rintro ⟨⟨rest, hrest⟩, hnext⟩
    rw [← hrest, List.drop_left] at hnext
    cases rest with
    | nil => exact Or.inl (hrest.symm.trans (List.append_nil _))
    | cons c rest => exact Or.inr ⟨rest, by rw [← hrest, of_decide_eq_true hnext]⟩
  · rintro (heq | ⟨rest, heq⟩)
    · rw [heq, List.drop_length]
      exact ⟨List.prefix_rfl, rfl⟩
    · rw [heq, List.drop_left]
      exact ⟨List.prefix_append _ _, rfl⟩

/-! ### Method rules -/

/-- An entry stands for a method.  Between white space it has one hash, with text that is not blank
on either side. -/
def NamesMethod (entry cls method : String) : Prop :=
  ∃ before after, trimmed entry = before ++ "#" ++ after ∧ '#' ∉ before.toList ∧
    '#' ∉ after.toList ∧ trimmed before = cls ∧ trimmed after = method ∧ cls ≠ "" ∧ method ≠ ""

/-- An entry that is not blank and stands for no method. -/
def IsMalformed (entry : String) : Prop :=
  trimmed entry ≠ "" ∧ ∀ cls method, ¬ NamesMethod entry cls method

theorem trimmed_ofList (cs : List Char) :
    trimmed (String.ofList cs) = String.ofList (Text.trim cs) := by
  rw [trimmed, String.toList_ofList]

/-- The rule of a method entry is the method that the entry stands for. -/
theorem methodRule?_eq_some_iff (entry cls method : String) :
    methodRule? (trimmed entry) = some ⟨cls, method⟩ ↔ NamesMethod entry cls method := by
  have hcut {before after : String} (hentry : trimmed entry = before ++ "#" ++ after)
      (hbefore : '#' ∉ before.toList) :
      Text.cut? '#' (trimmed entry).toList = some (before.toList, after.toList) := by
    rw [Text.cut?_eq_some_iff, hentry, String.toList_append, String.toList_append,
      List.append_assoc]
    exact ⟨rfl, hbefore⟩
  unfold methodRule?
  split
  · rename_i hnone
    refine ⟨nofun, ?_⟩
    rintro ⟨before, after, hentry, hbefore, -⟩
    cases hnone.symm.trans (hcut hentry hbefore)
  · rename_i before after hsome
    obtain ⟨hentry, hbefore⟩ := Text.cut?_eq_some_iff.mp hsome
    have hafter : (Text.trim after).contains '#' = true ↔ '#' ∈ after := by
      rw [List.contains_iff_mem, Text.mem_trim_iff (by decide)]
    simp only
    split
    · rename_i hbad
      refine ⟨nofun, ?_⟩
      rintro ⟨before', after', hentry', hbefore', hafter', hcls, hmethod, hne, hne'⟩
      cases hsome.symm.trans (hcut hentry' hbefore')
      rw [Bool.or_eq_true, Bool.or_eq_true, List.isEmpty_iff, List.isEmpty_iff, hafter] at hbad
      rcases hbad with (hbad | hbad) | hbad
      · exact absurd (hcls.symm.trans (String.ofList_eq_empty_iff.mpr hbad)) hne
      · exact absurd (hmethod.symm.trans (String.ofList_eq_empty_iff.mpr hbad)) hne'
      · exact absurd hbad hafter'
    · rename_i hgood
      rw [Bool.or_eq_true, Bool.or_eq_true, List.isEmpty_iff, List.isEmpty_iff, hafter, not_or,
        not_or] at hgood
      obtain ⟨⟨hcls, hmethod⟩, hclean⟩ := hgood
      constructor
      · rintro ⟨⟩
        refine ⟨String.ofList before, String.ofList after, ?_, by rwa [String.toList_ofList],
          by rwa [String.toList_ofList], trimmed_ofList before, trimmed_ofList after,
          mt String.ofList_eq_empty_iff.mp hcls, mt String.ofList_eq_empty_iff.mp hmethod⟩
        rw [← String.toList_inj, hentry]
        simp
      · rintro ⟨before', after', hentry', hbefore', -, hcls', hmethod', -⟩
        cases hsome.symm.trans (hcut hentry' hbefore')
        cases hcls'
        cases hmethod'
        rfl

/-! ### The lists -/

theorem entries_cons (entry : String) (raw : List String) :
    entries (entry :: raw) =
      if trimmed entry = "" then entries raw else trimmed entry :: entries raw := by
  unfold entries
  rw [List.map_cons, List.filter_cons]
  by_cases h : trimmed entry = "" <;> simp [h]

theorem mem_entries_iff (c : String) (raw : List String) :
    c ∈ entries raw ↔ c ≠ "" ∧ ∃ entry ∈ raw, trimmed entry = c := by
  rw [entries, List.mem_filter, List.mem_map, decide_eq_true_iff, and_comm]

/-- Blank entries stand for no method. -/
theorem NamesMethod.not_blank {entry cls method : String} (h : NamesMethod entry cls method) :
    trimmed entry ≠ "" := by
  obtain ⟨before, after, hentry, -⟩ := h
  intro hblank
  have hlist := congrArg String.toList (hentry.symm.trans hblank)
  simp at hlist

theorem NamesMethod.not_malformed {entry cls method : String} (h : NamesMethod entry cls method) :
    ¬ IsMalformed entry :=
  fun hbad => hbad.2 cls method h

/-- The first malformed one of some entries. -/
def IsFirstMalformed (raw : List String) (entry : String) : Prop :=
  ∃ before after, raw = before ++ entry :: after ∧ (∀ e ∈ before, ¬ IsMalformed e) ∧
    IsMalformed entry

theorem isFirstMalformed_cons_iff (entry : String) (raw : List String) (first : String) :
    IsFirstMalformed (entry :: raw) first ↔
      IsMalformed entry ∧ first = entry ∨ ¬ IsMalformed entry ∧ IsFirstMalformed raw first := by
  constructor
  · rintro ⟨before, after, heq, hbefore, hfirst⟩
    cases before with
    | nil =>
        cases heq
        exact Or.inl ⟨hfirst, rfl⟩
    | cons e before =>
        cases heq
        exact Or.inr ⟨hbefore entry List.mem_cons_self, before, after, rfl,
          fun e he => hbefore e (List.mem_cons_of_mem _ he), hfirst⟩
  · rintro (⟨hbad, rfl⟩ | ⟨hgood, before, after, rfl, hbefore, hfirst⟩)
    · exact ⟨[], raw, rfl, fun _ he => absurd he List.not_mem_nil, hbad⟩
    · exact ⟨entry :: before, after, rfl, List.forall_mem_cons.mpr ⟨hgood, hbefore⟩, hfirst⟩

/-- How the first of some method entries bears on the rules. -/
theorem methodRules_cons_cases (entry : String) (raw : List String) :
    (IsMalformed entry ∧ methodRules (entries (entry :: raw)) = .error ⟨trimmed entry⟩) ∨
      (¬ IsMalformed entry ∧ (∀ cls method, ¬ NamesMethod entry cls method) ∧
        methodRules (entries (entry :: raw)) = methodRules (entries raw)) ∨
      ∃ rule, (∀ cls method, NamesMethod entry cls method ↔ rule = ⟨cls, method⟩) ∧
        methodRules (entries (entry :: raw)) = (methodRules (entries raw)).map (rule :: ·) := by
  rw [entries_cons]
  by_cases hblank : trimmed entry = ""
  · rw [if_pos hblank]
    exact Or.inr (Or.inl ⟨fun hbad => hbad.1 hblank, fun _ _ h => h.not_blank hblank, rfl⟩)
  · rw [if_neg hblank, methodRules]
    cases hrule : methodRule? (trimmed entry) with
    | none =>
        refine Or.inl ⟨⟨hblank, fun cls method h => ?_⟩, rfl⟩
        cases hrule.symm.trans ((methodRule?_eq_some_iff entry cls method).mpr h)
    | some rule =>
        refine Or.inr (Or.inr ⟨rule, fun cls method => ?_, ?_⟩)
        · rw [← methodRule?_eq_some_iff, hrule, Option.some.injEq]
        · cases methodRules (entries raw) <;> rfl

theorem methodRules_eq_error_iff (raw : List String) (e : MalformedMethod) :
    methodRules (entries raw) = .error e ↔
      ∃ entry, IsFirstMalformed raw entry ∧ e = ⟨trimmed entry⟩ := by
  induction raw with
  | nil =>
      refine ⟨nofun, ?_⟩
      rintro ⟨entry, ⟨before, after, heq, -⟩, -⟩
      cases before <;> cases heq
  | cons entry raw ih =>
      simp only [isFirstMalformed_cons_iff]
      rcases methodRules_cons_cases entry raw with
        ⟨hbad, heq⟩ | ⟨hgood, -, heq⟩ | ⟨rule, hnames, heq⟩ <;> rw [heq]
      · simp [hbad, eq_comm]
      · simpa [hgood] using ih
      · have hmap : (methodRules (entries raw)).map (rule :: ·) = .error e ↔
            methodRules (entries raw) = .error e := by
          cases methodRules (entries raw) <;> simp [Except.map]
        have hgood : ¬ IsMalformed entry :=
          ((hnames rule.cls rule.method).mpr rfl).not_malformed
        simpa [hmap, hgood] using ih

/-- The method rules are those that the entries stand for. -/
theorem mem_methodRules_iff {raw : List String} {rules : List MethodRule}
    (h : methodRules (entries raw) = .ok rules) (cls method : String) :
    ⟨cls, method⟩ ∈ rules ↔ ∃ entry ∈ raw, NamesMethod entry cls method := by
  induction raw generalizing rules with
  | nil =>
      cases h
      simp
  | cons entry raw ih =>
      simp only [List.mem_cons, exists_eq_or_imp]
      rcases methodRules_cons_cases entry raw with
        ⟨-, heq⟩ | ⟨-, hnot, heq⟩ | ⟨rule, hnames, heq⟩ <;> rw [heq] at h
      · cases h
      · rw [ih h, or_iff_right (hnot cls method)]
      · cases hrules : methodRules (entries raw) with
        | error e =>
            rw [hrules] at h
            cases h
        | ok rest =>
            rw [hrules] at h
            cases h
            rw [List.mem_cons, ih hrules, hnames, eq_comm]

/-! ### Decisions -/

/-- A rule of some entries matches an access, and is named by a reason. -/
inductive Matches (packages classes methods : List String) (a : Access) : String → Prop
  | package {entry package : String} :
      entry ∈ packages → NamesPackage entry package → package ≠ "" →
      package.toList.splitOn '.' <+: a.inPackage.toList.splitOn '.' →
      Matches packages classes methods a ("package " ++ package ++ " is blocked")
  | cls {entry c : String} :
      entry ∈ classes → trimmed entry = c → c ≠ "" → a.cls? = some c →
      Matches packages classes methods a ("class " ++ c ++ " is blocked")
  | method {entry c m : String} :
      entry ∈ methods → NamesMethod entry c m → a = .method c m →
      Matches packages classes methods a ("method " ++ c ++ "#" ++ m ++ " is blocked")

/-- More entries match no less. -/
theorem Matches.mono {packages classes methods packages' classes' methods' : List String}
    {a : Access} {reason : String} (h : Matches packages classes methods a reason)
    (hp : packages ⊆ packages') (hc : classes ⊆ classes') (hm : methods ⊆ methods') :
    Matches packages' classes' methods' a reason := by
  cases h with
  | package hentry hnames hne hprefix => exact .package (hp hentry) hnames hne hprefix
  | cls hentry htrimmed hne ha => exact .cls (hc hentry) htrimmed hne ha
  | method hentry hnames ha => exact .method (hm hentry) hnames ha

section Built

variable {packages classes methods : List String} {f : Filter}

theorem ofLists_eq_error_iff (packages classes methods : List String) (e : MalformedMethod) :
    ofLists packages classes methods = .error e ↔
      ∃ entry, IsFirstMalformed methods entry ∧ e = ⟨trimmed entry⟩ := by
  rw [← methodRules_eq_error_iff, ofLists]
  cases methodRules (entries methods) <;> simp

/-- The rules of a filter are those that the entries stand for. -/
theorem ofLists_rules (hf : ofLists packages classes methods = .ok f) :
    (∀ p, p ∈ f.packages ↔ p ≠ "" ∧ ∃ entry ∈ packages, NamesPackage entry p) ∧
      (∀ c, c ∈ f.classes ↔ c ≠ "" ∧ ∃ entry ∈ classes, trimmed entry = c) ∧
      ∀ c m, ⟨c, m⟩ ∈ f.methods ↔ ∃ entry ∈ methods, NamesMethod entry c m := by
  unfold ofLists at hf
  split at hf
  · cases hf
  · rename_i rules hrules
    cases hf
    refine ⟨fun p => ?_, fun c => mem_entries_iff c classes, mem_methodRules_iff hrules⟩
    simp only [List.mem_filter, List.mem_map, packageRule_eq_iff, decide_eq_true_iff, ne_eq]
    exact and_comm

/-- The reason of a denial names a rule that matches. -/
theorem matches_of_check (hf : ofLists packages classes methods = .ok f) {a : Access}
    {reason : String} (hdeny : f.check a = .deny reason) :
    Matches packages classes methods a reason := by
  obtain ⟨hpackages, hclasses, hmethods⟩ := ofLists_rules hf
  have hcls {c : String} (hc : c ∈ f.classes) (ha : a.cls? = some c) :
      Matches packages classes methods a ("class " ++ c ++ " is blocked") := by
    obtain ⟨hne, entry, hentry, htrimmed⟩ := (hclasses c).mp hc
    exact .cls hentry htrimmed hne ha
  unfold check at hdeny
  split at hdeny
  · rename_i rule hfind
    cases hdeny
    obtain ⟨hne, entry, hentry, hnames⟩ := (hpackages rule).mp (List.mem_of_find?_eq_some hfind)
    have hcovers : coversPackage rule a.inPackage = true :=
      List.find?_some (p := (coversPackage · a.inPackage)) hfind
    exact .package hentry hnames hne ((coversPackage_iff _ _).mp hcovers)
  · split at hdeny
    · rename_i reason' hreason
      cases hdeny
      cases a with
      | package p => cases hreason
      | cls c =>
          simp only [memberReason?] at hreason
          split at hreason <;> cases hreason
          exact hcls ‹_› rfl
      | method c m =>
          simp only [memberReason?] at hreason
          split at hreason
          · cases hreason
            exact hcls ‹_› rfl
          · split at hreason <;> cases hreason
            obtain ⟨entry, hentry, hnames⟩ := (hmethods c m).mp ‹_›
            exact .method hentry hnames rfl
    · cases hdeny

/-- What a rule matches is denied. -/
theorem check_ne_allow (hf : ofLists packages classes methods = .ok f) {a : Access}
    {reason : String} (hmatches : Matches packages classes methods a reason) :
    f.check a ≠ .allow := by
  obtain ⟨hpackages, hclasses, hmethods⟩ := ofLists_rules hf
  have hmember (hsome : f.memberReason? a ≠ none) : f.check a ≠ .allow := by
    unfold check
    split
    · simp
    · cases hreason : f.memberReason? a with
      | none => exact absurd hreason hsome
      | some reason => simp
  cases hmatches with
  | @package entry p hentry hnames hne hprefix =>
      have hfind : f.packages.find? (coversPackage · a.inPackage) ≠ none := by
        intro hnone
        exact List.find?_eq_none.mp hnone p ((hpackages p).mpr ⟨hne, entry, hentry, hnames⟩)
          ((coversPackage_iff _ _).mpr hprefix)
      unfold check
      split
      · simp
      · rename_i hnone
        exact absurd hnone hfind
  | @cls entry c hentry htrimmed hne ha =>
      have hc : c ∈ f.classes := (hclasses c).mpr ⟨hne, entry, hentry, htrimmed⟩
      refine hmember ?_
      cases a <;> cases ha <;> simp [memberReason?, hc]
  | @method entry c m hentry hnames ha =>
      subst ha
      refine hmember ?_
      have hm : ⟨c, m⟩ ∈ f.methods := (hmethods c m).mpr ⟨entry, hentry, hnames⟩
      simp only [memberReason?, hm, if_true]
      split <;> simp

/-- A filter denies exactly what some rule matches. -/
theorem check_ne_allow_iff (hf : ofLists packages classes methods = .ok f) (a : Access) :
    f.check a ≠ .allow ↔ ∃ reason, Matches packages classes methods a reason := by
  constructor
  · intro hdenied
    cases hcheck : f.check a with
    | allow => exact absurd hcheck hdenied
    | deny reason => exact ⟨reason, matches_of_check hf hcheck⟩
  · rintro ⟨reason, hmatches⟩
    exact check_ne_allow hf hmatches

/-- A filter of more entries allows nothing that another one denies. -/
theorem check_ne_allow_mono {packages' classes' methods' : List String} {g : Filter}
    (hf : ofLists packages classes methods = .ok f)
    (hg : ofLists packages' classes' methods' = .ok g) (hp : packages ⊆ packages')
    (hc : classes ⊆ classes') (hm : methods ⊆ methods') {a : Access} (ha : f.check a ≠ .allow) :
    g.check a ≠ .allow := by
  obtain ⟨reason, hmatches⟩ := (check_ne_allow_iff hf a).mp ha
  exact check_ne_allow hg (hmatches.mono hp hc hm)

end Built

theorem exists_isFirstMalformed_iff (raw : List String) :
    (∃ entry, IsFirstMalformed raw entry) ↔ ∃ entry ∈ raw, IsMalformed entry := by
  constructor
  · rintro ⟨entry, before, after, rfl, -, hbad⟩
    exact ⟨entry, by simp, hbad⟩
  · rintro ⟨entry, hentry, hbad⟩
    induction raw with
    | nil => cases hentry
    | cons first raw ih =>
        simp only [isFirstMalformed_cons_iff]
        by_cases hfirst : IsMalformed first
        · exact ⟨first, Or.inl ⟨hfirst, rfl⟩⟩
        · rcases List.mem_cons.mp hentry with rfl | hentry
          · exact absurd hbad hfirst
          · obtain ⟨e, he⟩ := ih hentry
            exact ⟨e, Or.inr ⟨hfirst, he⟩⟩

/-- **Filters.**  No filter is built exactly if a method entry is malformed, and the first one is
blamed.  A filter denies what its entries match, for a reason that names such a match, and nothing
else.  The order and the number of the entries make no difference to what is allowed, and more
entries allow nothing that was denied. -/
theorem exactness (packages classes methods : List String) :
    ((∃ e, ofLists packages classes methods = .error e) ↔ ∃ entry ∈ methods, IsMalformed entry) ∧
    (∀ e, ofLists packages classes methods = .error e ↔
      ∃ entry, IsFirstMalformed methods entry ∧ e = ⟨trimmed entry⟩) ∧
    ∀ f, ofLists packages classes methods = .ok f →
      (∀ a, (f.check a ≠ .allow ↔ ∃ reason, Matches packages classes methods a reason) ∧
        ∀ reason, f.check a = .deny reason → Matches packages classes methods a reason) ∧
      ∀ packages' classes' methods' g, ofLists packages' classes' methods' = .ok g →
        packages ⊆ packages' → classes ⊆ classes' → methods ⊆ methods' →
        (∀ a, f.check a ≠ .allow → g.check a ≠ .allow) ∧
        (packages' ⊆ packages → classes' ⊆ classes → methods' ⊆ methods →
          ∀ a, f.check a = .allow ↔ g.check a = .allow) := by
  have hless {packages classes methods packages' classes' methods' : List String} {f g : Filter}
      (hf : ofLists packages classes methods = .ok f)
      (hg : ofLists packages' classes' methods' = .ok g) (hp : packages ⊆ packages')
      (hc : classes ⊆ classes') (hm : methods ⊆ methods') {a : Access}
      (ha : g.check a = .allow) : f.check a = .allow := by
    by_contra hdenied
    exact check_ne_allow_mono hf hg hp hc hm hdenied ha
  refine ⟨?_, ofLists_eq_error_iff packages classes methods, fun f hf => ⟨fun a => ?_, ?_⟩⟩
  · rw [← exists_isFirstMalformed_iff]
    simp only [ofLists_eq_error_iff]
    constructor
    · rintro ⟨e, entry, hfirst, -⟩
      exact ⟨entry, hfirst⟩
    · rintro ⟨entry, hfirst⟩
      exact ⟨_, entry, hfirst, rfl⟩
  · exact ⟨check_ne_allow_iff hf a, fun reason h => matches_of_check hf h⟩
  · intro packages' classes' methods' g hg hp hc hm
    refine ⟨fun a ha => check_ne_allow_mono hf hg hp hc hm ha, fun hp' hc' hm' a => ?_⟩
    exact ⟨hless hg hf hp' hc' hm', hless hf hg hp hc hm⟩

/-- A package entry with white space, dots and a star, and the same among other entries. -/
theorem exactness_wildcard :
    ∃ f g, ofLists [" java.nio..* "] [] [] = .ok f ∧
      ofLists ["java.io", " java.nio..* "] [" "] ["a.B # c"] = .ok g ∧
      [" java.nio..* "] ⊆ ["java.io", " java.nio..* "] ∧
      f.check (.cls "java.nio.file.Files") ≠ .allow ∧
      (∃ reason, Matches [" java.nio..* "] [] [] (.cls "java.nio.file.Files") reason) ∧
      g.check (.cls "java.nio.file.Files") ≠ .allow := by
  have hf : ofLists [" java.nio..* "] [] [] = .ok { packages := ["java.nio"] } := by
    decide +kernel
  have hg : ofLists ["java.io", " java.nio..* "] [" "] ["a.B # c"] =
      .ok { packages := ["java.io", "java.nio"], methods := [⟨"a.B", "c"⟩] } := by
    decide +kernel
  have hdenied : check { packages := ["java.nio"] } (.cls "java.nio.file.Files") ≠ .allow := by
    decide +kernel
  obtain ⟨-, -, hbuilt⟩ := exactness [" java.nio..* "] [] []
  obtain ⟨hexact, hmore⟩ := hbuilt _ hf
  exact ⟨_, _, hf, hg, List.subset_cons_self _ _, hdenied, (hexact _).1.mp hdenied,
    (hmore _ _ _ _ hg (List.subset_cons_self _ _) (List.nil_subset _) (List.nil_subset _)).1 _
      hdenied⟩

/-- No rule is made of a blank class entry, not even for a class without a name. -/
theorem blank_class_allowed :
    ∃ f, ofLists [] [""] [] = .ok f ∧
      (∃ entry ∈ [""], (Access.cls "").cls? = some (trimmed entry)) ∧ f.check (.cls "") = .allow :=
  ⟨{}, by decide +kernel, ⟨"", List.mem_singleton_self _, by decide +kernel⟩, by decide +kernel⟩

end Filter
end GuardedRepl
