/-
  DesignMarkup/Proofs/Stylesheet/Numbering.lean
  =============================================
  **Classes are numbered by first use.**  A run of requests gives each style a number:
  the one that its text was given before, or else the next.  `Numbers` says which
  declarations the numbered rules of a stylesheet are for; a request keeps the list or adds
  the new declarations at its end (`Numbers.request`), and nothing else is added to the
  rules.

  `Numbers.requestAll` follows a whole run.  Nothing is asked of the declarations here:
  they count as the same if their texts are the same.
-/
import DesignMarkup.Proofs.Stylesheet.Growth
import Mathlib.Data.List.Forall2
import Mathlib.Data.List.Nodup
import Mathlib.Data.List.Infix

namespace DesignMarkup.Stylesheet

/-- The classes for several declarations, requested one after the other. -/
def requestAll : List Declarations → Stylesheet → List ClassName × Stylesheet
  | [], s => ([], s)
  | d :: rest, s =>
    let (name, s) := s.request d
    let (names, s) := requestAll rest s
    (name :: names, s)

theorem requestAll_append (first rest : List Declarations) (s : Stylesheet) :
    requestAll (first ++ rest) s =
      ((requestAll first s).1 ++ (requestAll rest (requestAll first s).2).1,
        (requestAll rest (requestAll first s).2).2) := by
  induction first generalizing s with
  | nil => rfl
  | cons d more ih => simp only [List.cons_append, requestAll, ih]

/-! ### What is added -/

theorem rules_request (s : Stylesheet) (d : Declarations) :
    ∃ added, (s.request d).2.rules = s.rules ++ added ∧ ∀ rule ∈ added, isNumbered rule = true := by
  rcases request_cases s d with ⟨rule, -, -, heq⟩ | ⟨-, heq⟩
  · refine ⟨[], ?_, nofun⟩
    rw [heq, List.append_nil]
  · refine ⟨[⟨.numbered s.nextNumber, d⟩], by rw [heq], ?_⟩
    intro rule hrule
    rw [List.mem_singleton.mp hrule]
    rfl

theorem rules_requestAll (styles : List Declarations) (s : Stylesheet) :
    ∃ added, (requestAll styles s).2.rules = s.rules ++ added ∧
      ∀ rule ∈ added, isNumbered rule = true := by
  induction styles generalizing s with
  | nil => exact ⟨[], (List.append_nil _).symm, nofun⟩
  | cons d rest ih =>
    obtain ⟨first, hfirst, hnumbered⟩ := rules_request s d
    obtain ⟨more, hmore, hnumbered'⟩ := ih (s.request d).2
    refine ⟨first ++ more, ?_, ?_⟩
    · simp only [requestAll, hmore, hfirst, List.append_assoc]
    · intro rule hrule
      rcases List.mem_append.mp hrule with h | h
      · exact hnumbered rule h
      · exact hnumbered' rule h

/-! ### Which number a style gets -/

theorem getElem?_of_prefix {used used' : List Declarations} (h : used <+: used') {n : Nat}
    {d : Declarations} (hd : used[n]? = some d) : used'[n]? = some d := by
  obtain ⟨rest, rfl⟩ := h
  obtain ⟨hlt, -⟩ := List.getElem?_eq_some_iff.mp hd
  rw [List.getElem?_append_left hlt, hd]

/-- The numbered rules are those for `used`, counted from zero, and these have different
    texts. -/
structure Numbers (s : Stylesheet) (used : List Declarations) : Prop where
  rules : s.rules.filter isNumbered = used.mapIdx fun n d => ⟨.numbered n, d⟩
  distinct : (used.map Declarations.text).Nodup

/-- Each number is smaller than `next`, or it is `next`, and then one more is in use.  From
    zero on: each is a number that came before, or the least that did not. -/
def CountsUpFrom : Nat → List Nat → Prop
  | _, [] => True
  | next, n :: rest => n < next ∧ CountsUpFrom next rest ∨ n = next ∧ CountsUpFrom (next + 1) rest

namespace Numbers

variable {s : Stylesheet} {used : List Declarations}

theorem nextNumber_eq (h : s.Numbers used) : s.nextNumber = used.length := by
  rw [nextNumber, List.countP_eq_length_filter, h.rules, List.length_mapIdx]

theorem mem_rules (h : s.Numbers used) {n : Nat} {d : Declarations} :
    ⟨.numbered n, d⟩ ∈ s.rules ↔ used[n]? = some d := by
  have hfilter : (⟨.numbered n, d⟩ : Rule) ∈ s.rules ↔
      (⟨.numbered n, d⟩ : Rule) ∈ s.rules.filter isNumbered := by
    rw [List.mem_filter]
    exact ⟨fun hrule => ⟨hrule, rfl⟩, fun hrule => hrule.1⟩
  rw [hfilter, h.rules, List.mem_mapIdx]
  constructor
  · rintro ⟨i, hi, heq⟩
    simp only [Rule.mk.injEq, ClassName.numbered.injEq] at heq
    obtain ⟨rfl, rfl⟩ := heq
    exact List.getElem?_eq_getElem hi
  · intro hn
    obtain ⟨hlt, hd⟩ := List.getElem?_eq_some_iff.mp hn
    exact ⟨n, hlt, by rw [hd]⟩

/-- **A request finds the number of a text that was used, and gives the next one to a new
    text.** -/
theorem request (h : s.Numbers used) (d : Declarations) :
    (∃ n d', (s.request d).1 = .numbered n ∧ used[n]? = some d' ∧ d'.text = d.text ∧
      (s.request d).2.Numbers used) ∨
    ((s.request d).1 = .numbered used.length ∧ (s.request d).2.Numbers (used ++ [d])) := by
  rcases request_cases s d with ⟨rule, hrule, hwith, heq⟩ | ⟨hnone, heq⟩
  · left
    obtain ⟨⟨n, hn⟩, htext⟩ := isNumberedWith_iff.mp hwith
    obtain ⟨name, d'⟩ := rule
    obtain rfl : name = .numbered n := hn
    rw [heq]
    exact ⟨n, d', rfl, h.mem_rules.mp hrule, htext, h⟩
  · right
    rw [heq, h.nextNumber_eq]
    refine ⟨rfl, ?_, ?_⟩
    · have hnew : [(⟨.numbered used.length, d⟩ : Rule)].filter isNumbered =
          [⟨.numbered used.length, d⟩] := rfl
      rw [List.filter_append, h.rules, hnew, List.mapIdx_concat]
    · -- a rule with this text would have been found
      rw [List.map_append, List.map_singleton, List.nodup_append]
      refine ⟨h.distinct, List.nodup_singleton _, ?_⟩
      intro text htext text' htext' hsame
      obtain ⟨d', hd', rfl⟩ := List.mem_map.mp htext
      obtain ⟨n, hn⟩ := List.mem_iff_getElem?.mp hd'
      have hfound := hnone _ (h.mem_rules.mpr hn)
      rw [List.mem_singleton.mp htext'] at hsame
      simp [isNumberedWith, hsame] at hfound

/-- **A run of requests numbers the styles by first use.** -/
theorem requestAll (h : s.Numbers used) (styles : List Declarations) :
    ∃ used' numbers, used <+: used' ∧ (requestAll styles s).2.Numbers used' ∧
      (requestAll styles s).1 = numbers.map .numbered ∧ CountsUpFrom used.length numbers ∧
      List.Forall₂ (fun n d => ∃ d', used'[n]? = some d' ∧ d'.text = d.text) numbers styles ∧
      ∀ d ∈ used', d ∈ used ∨ d ∈ styles := by
  induction styles generalizing s used with
  | nil =>
    exact ⟨used, [], List.prefix_refl used, h, rfl, trivial, .nil, fun d hd => Or.inl hd⟩
  | cons d rest ih =>
    rcases h.request d with ⟨n, d', hn, hd', htext, hnext⟩ | ⟨hn, hnext⟩
    · obtain ⟨used', numbers, hprefix, hfinal, hnames, hcount, hall, hmem⟩ := ih hnext
      have hlt : n < used.length := (List.getElem?_eq_some_iff.mp hd').1
      refine ⟨used', n :: numbers, hprefix, hfinal, ?_, Or.inl ⟨hlt, hcount⟩, ?_, ?_⟩
      · simp only [Stylesheet.requestAll, hnames, hn, List.map_cons]
      · exact .cons ⟨d', getElem?_of_prefix hprefix hd', htext⟩ hall
      · intro e he
        exact (hmem e he).imp_right (List.mem_cons_of_mem d)
    · obtain ⟨used', numbers, hprefix, hfinal, hnames, hcount, hall, hmem⟩ := ih hnext
      rw [List.length_append, List.length_singleton] at hcount
      have hlast : (used ++ [d])[used.length]? = some d := by simp
      refine ⟨used', used.length :: numbers, (List.prefix_append _ _).trans hprefix, hfinal, ?_,
        Or.inr ⟨rfl, hcount⟩, ?_, ?_⟩
      · simp only [Stylesheet.requestAll, hnames, hn, List.map_cons]
      · exact .cons ⟨d, getElem?_of_prefix hprefix hlast, rfl⟩ hall
      · intro e he
        rcases hmem e he with hold | hnew
        · rcases List.mem_append.mp hold with hold | hnew
          · exact Or.inl hold
          · rw [List.mem_singleton.mp hnew]
            exact Or.inr List.mem_cons_self
        · exact Or.inr (List.mem_cons_of_mem d hnew)

end Numbers

end DesignMarkup.Stylesheet
