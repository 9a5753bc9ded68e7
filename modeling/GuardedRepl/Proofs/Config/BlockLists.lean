import GuardedRepl.Config.Setting
import GuardedRepl.Proofs.Policy.Matching
import Mathlib.Tactic

/-!
# Block lists

The entries of a block list are written as texts with commas.  It makes no difference whether there
is one text for each entry or one for them all.  The entries are trimmed when they are read and once
more when rules are made of them; the second time changes nothing, so that rules can as well be made
of texts without commas as they are.

**Results.**
* `readList_array`, `readList_string`, `splitList_intercalate`: the ways to write a list are read
  alike.
* `ofLists_packages`, `ofLists_classes`, `ofLists_methods`: the filter of a list is that of the texts
  without commas that it was read from.
-/

namespace GuardedRepl

theorem trimmed_trimmed (s : String) : trimmed (trimmed s) = trimmed s := by
  rw [trimmed, trimmed, String.toList_ofList, Text.trim_trim]

/-! ## Rules of trimmed entries -/

namespace Filter

/-- Entries are trimmed once and for all. -/
theorem entries_entries (raw : List String) : entries (entries raw) = entries raw := by
  induction raw with
  | nil => rfl
  | cons entry raw ih =>
      rw [entries_cons]
      split_ifs with hblank
      · exact ih
      · rw [entries_cons, trimmed_trimmed, if_neg hblank, ih]

theorem packageRule_trimmed (entry : String) : packageRule (trimmed entry) = packageRule entry := by
  rw [packageRule, packageRule, trimmed, String.toList_ofList, Text.trim_trim]

/-- No rule is lost with the blank entries. -/
theorem packageRules_entries (raw : List String) :
    ((entries raw).map packageRule).filter (· ≠ "") = (raw.map packageRule).filter (· ≠ "") := by
  induction raw with
  | nil => rfl
  | cons entry raw ih =>
      rw [entries_cons, List.map_cons]
      split_ifs with hblank
      · have hrule : packageRule entry = "" := by
          rw [← packageRule_trimmed, hblank]
          decide
        rw [ih, hrule, List.filter_cons_of_neg (by simp)]
      · rw [List.map_cons, packageRule_trimmed, List.filter_cons, List.filter_cons, ih]

end Filter

/-! ## Texts with commas -/

namespace Config

/-- The entries of some texts with commas. -/
def blockList (texts : List String) : List String :=
  texts.flatMap splitList

theorem blockList_singleton (text : String) : blockList [text] = splitList text := by
  rw [blockList, List.flatMap_cons, List.flatMap_nil, List.append_nil]

/-- What stands before a comma and what stands behind it are read apart. -/
theorem splitList_of_comma {text : String} {before after : List Char}
    (htext : text.toList = before ++ ',' :: after) :
    splitList text = splitList (String.ofList before) ++ splitList (String.ofList after) := by
  simp only [splitList, htext, String.toList_ofList, Text.splitOn_eq,
    List.splitOn_append_cons_self, List.map_append, List.filter_append]

/-- A list can be written as one text. -/
theorem splitList_intercalate (texts : List String) :
    splitList (",".intercalate texts) = blockList texts := by
  have hcomma : ",".toList = [','] := rfl
  induction texts with
  | nil => decide +kernel
  | cons text texts ih =>
      cases texts with
      | nil =>
          rw [blockList_singleton]
          congr 1
      | cons next texts =>
          have hjoined : (",".intercalate (text :: next :: texts)).toList =
              text.toList ++ ',' :: (",".intercalate (next :: texts)).toList := by
            rw [String.toList_intercalate, String.toList_intercalate, hcomma, List.map_cons,
              List.map_cons, List.intercalate_cons_cons, List.append_assoc, List.singleton_append]
          rw [splitList_of_comma hjoined, String.ofList_toList, String.ofList_toList, ih]
          rfl

theorem mapM_readText (texts : List String) :
    (texts.map Toml.Value.string).mapM readText = some texts := by
  induction texts with
  | nil => rfl
  | cons text texts ih =>
      rw [List.map_cons, List.mapM_cons, ih]
      rfl

/-- A list can be written as an array. -/
theorem readList_array (texts : List String) :
    readList (.array (texts.map .string)) = some (blockList texts) := by
  rw [readList, mapM_readText]
  rfl

theorem readList_string (text : String) : readList (.string text) = some (splitList text) :=
  rfl

/-- A text without a comma is one entry. -/
theorem splitList_of_not_mem {text : String} (h : ',' ∉ text.toList) :
    splitList text = Filter.entries [text] := by
  rw [splitList, Text.splitOn_eq, List.splitOn_eq_singleton h]
  rfl

theorem blockList_of_not_mem {texts : List String} (h : ∀ text ∈ texts, ',' ∉ text.toList) :
    blockList texts = Filter.entries texts := by
  induction texts with
  | nil => rfl
  | cons text texts ih =>
      rw [List.forall_mem_cons] at h
      have hcons : Filter.entries (text :: texts) = Filter.entries [text] ++ Filter.entries texts :=
        by rw [Filter.entries, List.map_cons, ← List.singleton_append, List.filter_append]; rfl
      rw [blockList, List.flatMap_cons, splitList_of_not_mem h.1, hcons, ← ih h.2, blockList]

/-! ## Filters -/

section Filters

variable {texts : List String} (h : ∀ text ∈ texts, ',' ∉ text.toList)
include h

theorem ofLists_packages (classes methods : List String) :
    Filter.ofLists (blockList texts) classes methods = Filter.ofLists texts classes methods := by
  rw [Filter.ofLists, Filter.ofLists, blockList_of_not_mem h, Filter.packageRules_entries]

theorem ofLists_classes (packages methods : List String) :
    Filter.ofLists packages (blockList texts) methods = Filter.ofLists packages texts methods := by
  rw [Filter.ofLists, Filter.ofLists, blockList_of_not_mem h, Filter.entries_entries]

theorem ofLists_methods (packages classes : List String) :
    Filter.ofLists packages classes (blockList texts) = Filter.ofLists packages classes texts := by
  rw [Filter.ofLists, Filter.ofLists, blockList_of_not_mem h, Filter.entries_entries]

end Filters

end Config
end GuardedRepl
