/-
  DesignMarkup/Proofs/Stylesheet/Growth.lean
  ==========================================
  **How a stylesheet grows.**  A request either finds a rule that is there already or
  adds one at the end (`request_cases`); there is nothing else that it can do.  From
  this follows what every request keeps: the rules that were there, the names that were
  added, and the numbers, which count up from zero (`IsSequential`).

  `exists_rule_request` is what an element relies on: the class that it was given has a
  rule with its declarations.  `lookup_entries` says that looking up a class finds the
  one rule of that class, as long as no two rules have the same class.  Where names come
  more than once, it is still so of the classes with numbers (`hasOneRule_numbered`).
-/
import DesignMarkup.Proofs.Json.Members
import DesignMarkup.Proofs.Stylesheet.Reading
import DesignMarkup.Proofs.Text.Ascii

namespace DesignMarkup

namespace ClassName

def number? : ClassName → Option Nat
  | .named _ => none
  | .numbered n => some n

def name? : ClassName → Option String
  | .named name => some name
  | .numbered _ => none

theorem text_numbered_injective {n m : Nat}
    (h : (ClassName.numbered n).text = (ClassName.numbered m).text) : n = m :=
  Text.toString_injective ((String.append_right_inj "fg-").mp h)

theorem isClassChar_of_mem_numbered {n : Nat} {c : Char}
    (h : c ∈ (ClassName.numbered n).text.toList) : Stylesheet.isClassChar c = true := by
  rw [ClassName.text, String.toList_append, List.mem_append] at h
  rcases h with h | h
  · have hletters : "fg-".toList.all Stylesheet.isClassChar = true := by decide
    exact List.all_eq_true.mp hletters c h
  · have hmem : c ∈ Nat.toDigits 10 n := by simpa [Nat.toString_eq_ofList_toDigits] using h
    have hdigit : c.isDigit = true := Nat.isDigit_of_mem_toDigits (by decide) (by decide) hmem
    rw [Stylesheet.isClassChar, Bool.and_eq_true, bne_iff_ne, bne_iff_ne]
    constructor <;> rintro rfl <;> exact absurd hdigit (by decide)

end ClassName

namespace Stylesheet

def numbers (s : Stylesheet) : List Nat := s.rules.filterMap (·.className.number?)

/-- The names under which rules were added, in order. -/
def names (s : Stylesheet) : List String := s.rules.filterMap (·.className.name?)

/-- The numbers count up from zero. -/
def IsSequential (s : Stylesheet) : Prop := s.numbers = List.range s.nextNumber

/-! ### A request -/

/-- All that a request can do. -/
theorem request_cases (s : Stylesheet) (d : Declarations) :
    (∃ rule ∈ s.rules, isNumberedWith d.text rule = true ∧
      s.request d = (rule.className, s)) ∨
    ((∀ rule ∈ s.rules, isNumberedWith d.text rule = false) ∧
      s.request d =
        (.numbered s.nextNumber, ⟨s.rules ++ [⟨.numbered s.nextNumber, d⟩]⟩)) := by
  rcases hfind : s.rules.find? (isNumberedWith d.text) with _ | rule
  · refine Or.inr ⟨fun rule hrule => ?_, by rw [request, classOf?, hfind]; rfl⟩
    exact Bool.eq_false_iff.mpr (List.find?_eq_none.mp hfind rule hrule)
  · refine Or.inl ⟨rule, List.mem_of_find?_eq_some hfind, List.find?_some hfind, ?_⟩
    rw [request, classOf?, hfind]
    rfl

theorem isNumberedWith_iff {text : String} {rule : Rule} :
    isNumberedWith text rule = true ↔
      (∃ n, rule.className = .numbered n) ∧ rule.declarations.text = text := by
  unfold isNumberedWith
  cases rule.className with
  | named name => simp
  | numbered n => simp

/-- **The class that is given has a rule with the declarations asked for.** -/
theorem exists_rule_request (s : Stylesheet) (d : Declarations) :
    ∃ n, (s.request d).1 = .numbered n ∧
      ∃ rule ∈ (s.request d).2.rules, rule.className = .numbered n ∧
        rule.declarations.text = d.text := by
  rcases request_cases s d with ⟨rule, hrule, hwith, heq⟩ | ⟨-, heq⟩
  · obtain ⟨⟨n, hn⟩, htext⟩ := isNumberedWith_iff.mp hwith
    rw [heq]
    exact ⟨n, hn, rule, hrule, hn, htext⟩
  · rw [heq]
    exact ⟨s.nextNumber, rfl, ⟨.numbered s.nextNumber, d⟩,
      List.mem_append_right s.rules List.mem_cons_self, rfl, rfl⟩

/-! ### What a request keeps -/

/-- The rules that were there stay where they are. -/
theorem prefix_request (s : Stylesheet) (d : Declarations) : s.rules <+: (s.request d).2.rules := by
  rcases request_cases s d with ⟨_, _, _, heq⟩ | ⟨_, heq⟩
  · exact ⟨[], by rw [heq, List.append_nil]⟩
  · rw [heq]
    exact List.prefix_append _ _

theorem names_request (s : Stylesheet) (d : Declarations) : (s.request d).2.names = s.names := by
  rcases request_cases s d with ⟨_, _, _, heq⟩ | ⟨_, heq⟩
  · rw [heq]
  · rw [heq, names, names, List.filterMap_append]
    exact List.append_nil _

theorem mem_rules_request {s : Stylesheet} {d : Declarations} {rule : Rule}
    (h : rule ∈ (s.request d).2.rules) : rule ∈ s.rules ∨ rule.declarations = d := by
  rcases request_cases s d with ⟨_, _, _, heq⟩ | ⟨_, heq⟩
  · rw [heq] at h
    exact Or.inl h
  · rw [heq] at h
    refine (List.mem_append.mp h).imp_right fun hnew => ?_
    rw [List.mem_singleton.mp hnew]

theorem isSequential_request {s : Stylesheet} (h : s.IsSequential) (d : Declarations) :
    (s.request d).2.IsSequential := by
  rcases request_cases s d with ⟨_, _, _, heq⟩ | ⟨_, heq⟩
  · rw [heq]
    exact h
  · have hnext : (s.request d).2.nextNumber = s.nextNumber + 1 := by
      rw [heq, nextNumber, List.countP_append]
      rfl
    have hnumbers : (s.request d).2.numbers = s.numbers ++ [s.nextNumber] := by
      rw [heq, numbers, List.filterMap_append]
      rfl
    rw [IsSequential, hnumbers, hnext, h, List.range_succ]

/-! ### Adding a rule under a name -/

theorem names_add (s : Stylesheet) (name : String) (d : Declarations) :
    (s.add name d).names = s.names ++ [name] := by
  rw [add, names, List.filterMap_append]
  rfl

theorem isSequential_add {s : Stylesheet} (h : s.IsSequential) (name : String)
    (d : Declarations) : (s.add name d).IsSequential := by
  have hnext : (s.add name d).nextNumber = s.nextNumber := by
    rw [add, nextNumber, List.countP_append]
    rfl
  have hnumbers : (s.add name d).numbers = s.numbers := by
    rw [add, numbers, List.filterMap_append]
    exact List.append_nil _
  rw [IsSequential, hnumbers, hnext, h]

/-! ### Looking up a class -/

theorem nodup_numbers {s : Stylesheet} (h : s.IsSequential) : s.numbers.Nodup := by
  rw [h]
  exact List.nodup_range

/-- Rules have different classes if those with numbers have and those with names have. -/
theorem nodup_classNames {s : Stylesheet} (hnumbers : s.numbers.Nodup) (hnames : s.names.Nodup) :
    (s.rules.map (·.className)).Nodup := by
  obtain ⟨rules⟩ := s
  simp only [numbers, names] at hnumbers hnames
  induction rules with
  | nil => exact List.nodup_nil
  | cons rule rest ih =>
    obtain ⟨name | n, declarations⟩ := rule
    · simp only [List.filterMap_cons, ClassName.number?, ClassName.name?, List.nodup_cons]
        at hnumbers hnames
      rw [List.map_cons, List.nodup_cons]
      refine ⟨fun hmem => hnames.1 ?_, ih hnumbers hnames.2⟩
      obtain ⟨other, hother, heq⟩ := List.mem_map.mp hmem
      exact List.mem_filterMap.mpr ⟨other, hother, by rw [heq]⟩
    · simp only [List.filterMap_cons, ClassName.number?, ClassName.name?, List.nodup_cons]
        at hnumbers hnames
      rw [List.map_cons, List.nodup_cons]
      refine ⟨fun hmem => hnumbers.1 ?_, ih hnumbers.2 hnames⟩
      obtain ⟨other, hother, heq⟩ := List.mem_map.mp hmem
      exact List.mem_filterMap.mpr ⟨other, hother, by rw [heq]⟩

/-- **A class is found under its rule,** if no two rules share a class. -/
theorem lookup_entries {s : Stylesheet} (h : (s.entries.map Prod.fst).Nodup) {rule : Rule}
    (hrule : rule ∈ s.rules) :
    s.entries.lookup rule.className.text = some rule.declarations := by
  have hmem : (rule.className.text, rule.declarations) ∈ s.entries :=
    List.mem_map_of_mem (f := fun rule : Rule => (rule.className.text, rule.declarations)) hrule
  exact Json.lookup_of_mem h hmem

/-- A class has exactly one rule, and that has the declarations `d`. -/
def HasOneRule (rules : List Entry) (className : String) (d : Declarations) : Prop :=
  rules.filter (fun rule => rule.1 == className) = [(className, d)]

theorem HasOneRule.lookup {rules : List Entry} {className : String} {d : Declarations}
    (h : HasOneRule rules className d) : rules.lookup className = some d := by
  obtain ⟨before, after, rfl, hbefore, -, -⟩ := List.filter_eq_cons_iff.mp h
  refine List.lookup_eq_some_iff.mpr ⟨before, after, rfl, fun p hp => ?_⟩
  have hne := hbefore p hp
  rw [beq_iff_eq] at hne
  exact bne_iff_ne.mpr fun heq => hne heq.symm

theorem hasOneRule_between {before after : List Entry} {className : String} {d : Declarations}
    (h : ∀ entry ∈ before ++ after, entry.1 ≠ className) :
    HasOneRule (before ++ (className, d) :: after) className d := by
  have hnone : ∀ entry ∈ before ++ after, ¬(entry.1 == className) = true := by
    intro entry hentry heq
    exact h entry hentry (beq_iff_eq.mp heq)
  have hempty := List.filter_eq_nil_iff.mpr hnone
  rw [List.filter_append, List.append_eq_nil_iff] at hempty
  have hself : (className == className) = true := beq_self_eq_true className
  rw [HasOneRule, List.filter_append, List.filter_cons, if_pos hself, hempty.1, hempty.2]
  rfl

/-- **A class with a number has one rule,** as long as no rule was given such a class for its
    name. -/
theorem hasOneRule_numbered {s : Stylesheet} (hs : s.IsSequential)
    (hnames : ∀ name ∈ s.names, ∀ n, name ≠ (ClassName.numbered n).text) {n : Nat}
    {d : Declarations} (h : ⟨.numbered n, d⟩ ∈ s.rules) :
    HasOneRule s.entries (ClassName.numbered n).text d := by
  obtain ⟨before, after, hsplit⟩ := List.append_of_mem h
  have hnumbers : s.numbers = before.filterMap (·.className.number?)
      ++ n :: after.filterMap (·.className.number?) := by
    rw [numbers, hsplit, List.filterMap_append]
    rfl
  have hnodup := nodup_numbers hs
  rw [hnumbers, List.perm_middle.nodup_iff, List.nodup_cons, ← List.filterMap_append] at hnodup
  rw [entries, hsplit, List.map_append, List.map_cons]
  apply hasOneRule_between
  intro entry hentry heq
  rw [← List.map_append] at hentry
  obtain ⟨rule, hrule, rfl⟩ := List.mem_map.mp hentry
  -- another rule has this class neither for its name nor for its number
  cases hclass : rule.className with
  | named name =>
    have hmem : rule ∈ s.rules := by
      rw [hsplit]
      exact List.perm_middle.mem_iff.mpr (List.mem_cons_of_mem _ hrule)
    rw [hclass] at heq
    exact hnames name (List.mem_filterMap.mpr ⟨rule, hmem, by rw [hclass]; rfl⟩) n heq
  | numbered m =>
    rw [hclass] at heq
    obtain rfl := ClassName.text_numbered_injective heq
    exact hnodup.1 (List.mem_filterMap.mpr ⟨rule, hrule, by rw [hclass]; rfl⟩)

end Stylesheet

end DesignMarkup
