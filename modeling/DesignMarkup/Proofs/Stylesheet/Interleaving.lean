/-
  DesignMarkup/Proofs/Stylesheet/Interleaving.lean
  ================================================
  **Requests and added rules in any order.**  A run uses a stylesheet step by step: it asks for
  the class of declarations, or adds a rule under a name.  The classes that it gets are known from
  what it asks for alone: the number of a text is its place among the different texts, in the
  order in which they were first asked for (`numberOf`).  `IsNumberedFor` says so of the rules
  that are there at a moment.  A step keeps it (`IsNumberedFor.request`, `IsNumberedFor.add`),
  and so does a run (`IsNumberedFor.run`).

  A stylesheet works out from its rules which texts have a class and which number is next.  It
  might as well keep both beside the rules, in a table and a counter (`Indexed`).  The two kinds
  go hand in hand at every step, so that table and counter always fit the rules.
-/
import DesignMarkup.Proofs.Style.Setting
import DesignMarkup.Proofs.Stylesheet.Numbering

namespace DesignMarkup.Stylesheet

/-! ### Runs -/

inductive Step where
  | request (d : Declarations)
  | add (name : String) (d : Declarations)
deriving DecidableEq, Repr

namespace Step

def requested? : Step → Option Declarations
  | .request d => some d
  | .add _ _ => none

def name? : Step → Option String
  | .request _ => none
  | .add name _ => some name

def isRequest (step : Step) : Bool := step.requested?.isSome

end Step

/-- The declarations that a run asks a class for, in order. -/
def requested (steps : List Step) : List Declarations := steps.filterMap Step.requested?

def requestedTexts (steps : List Step) : List String := (requested steps).map Declarations.text

section Run

variable {σ τ : Type} (request : σ → Declarations → ClassName × σ)
  (add : σ → String → Declarations → σ) (request' : τ → Declarations → ClassName × τ)
  (add' : τ → String → Declarations → τ)

/-- What a run asks for with the classes that it gets, and what there is in the end. -/
def runWith : σ → List Step → List (Declarations × ClassName) × σ
  | s, [] => ([], s)
  | s, .request d :: rest =>
    let (c, next) := request s d
    let (given, final) := runWith next rest
    ((d, c) :: given, final)
  | s, .add name d :: rest => runWith (add s name d) rest

theorem runWith_append (s : σ) (first rest : List Step) :
    runWith request add s (first ++ rest) =
      ((runWith request add s first).1 ++
          (runWith request add (runWith request add s first).2 rest).1,
        (runWith request add (runWith request add s first).2 rest).2) := by
  induction first generalizing s with
  | nil => rfl
  | cons step more ih =>
    cases step with
    | request d => simp only [List.cons_append, runWith, ih]
    | add name d => simp only [List.cons_append, runWith, ih]

/-- Where the steps of two kinds of stylesheet go hand in hand, the runs do. -/
theorem runWith_view {view : σ → τ}
    (hrequest : ∀ s d, request' (view s) d = ((request s d).1, view (request s d).2))
    (hadd : ∀ s name d, add' (view s) name d = view (add s name d)) (s : σ) (steps : List Step) :
    runWith request' add' (view s) steps =
      ((runWith request add s steps).1, view (runWith request add s steps).2) := by
  induction steps generalizing s with
  | nil => rfl
  | cons step rest ih =>
    cases step with
    | request d => simp only [runWith, hrequest, ih]
    | add name d => simp only [runWith, hadd, ih]

end Run

/-- The declarations that a class was asked for, each with its class, in order. -/
def given (s : Stylesheet) (steps : List Step) : List (Declarations × ClassName) :=
  (runWith request add s steps).1

def after (s : Stylesheet) (steps : List Step) : Stylesheet := (runWith request add s steps).2

theorem after_append (s : Stylesheet) (first rest : List Step) :
    s.after (first ++ rest) = (s.after first).after rest := by
  rw [after, runWith_append]
  rfl

/-! ### What a run keeps -/

theorem prefix_after (s : Stylesheet) (steps : List Step) :
    s.rules <+: (s.after steps).rules := by
  induction steps generalizing s with
  | nil => exact List.prefix_refl _
  | cons step rest ih =>
    cases step with
    | request d => exact (prefix_request s d).trans (ih (s.request d).2)
    | add name d => exact (List.prefix_append _ _).trans (ih (s.add name d))

theorem isSequential_after {s : Stylesheet} (h : s.IsSequential) (steps : List Step) :
    (s.after steps).IsSequential := by
  induction steps generalizing s with
  | nil => exact h
  | cons step rest ih =>
    cases step with
    | request d => exact ih (isSequential_request h d)
    | add name d => exact ih (isSequential_add h name d)

theorem names_after (s : Stylesheet) (steps : List Step) :
    (s.after steps).names = s.names ++ steps.filterMap Step.name? := by
  induction steps generalizing s with
  | nil => exact (List.append_nil _).symm
  | cons step rest ih =>
    cases step with
    | request d =>
      refine (ih (s.request d).2).trans ?_
      rw [names_request]
      rfl
    | add name d =>
      refine (ih (s.add name d)).trans ?_
      rw [names_add, List.append_assoc]
      rfl

/-! ### The number of a text -/

/-- The place of a text among the different texts that were asked for. -/
def numberOf (asked : List Declarations) (d : Declarations) : Nat :=
  (asked.map Declarations.text).eraseDups.idxOf d.text

/-- What is asked for later does not change a number. -/
theorem numberOf_append {asked : List Declarations} {d : Declarations} (h : d ∈ asked)
    (more : List Declarations) : numberOf (asked ++ more) d = numberOf asked d := by
  have hmem : d.text ∈ (asked.map Declarations.text).eraseDups :=
    List.mem_eraseDups.mpr (List.mem_map_of_mem h)
  rw [numberOf, numberOf, List.map_append, List.eraseDups_append, List.idxOf_append, if_pos hmem]

theorem numberOf_eq_iff {asked : List Declarations} {d d' : Declarations} (h : d ∈ asked) :
    numberOf asked d = numberOf asked d' ↔ d.text = d'.text :=
  List.idxOf_inj (List.mem_eraseDups.mpr (List.mem_map_of_mem h))

theorem numberOf_new {asked : List Declarations} {d : Declarations}
    (h : d.text ∉ asked.map Declarations.text) :
    numberOf (asked ++ [d]) d = (asked.map Declarations.text).eraseDups.length := by
  have hnew : d.text ∉ (asked.map Declarations.text).eraseDups := by
    rwa [List.mem_eraseDups]
  rw [numberOf, List.map_append, List.map_singleton, eraseDups_concat, if_neg h,
    List.idxOf_append, if_neg hnew, List.idxOf_cons_self, Nat.zero_add]

/-- The numbered rules are for the texts that were asked for, each once, in order. -/
def IsNumberedFor (asked : List Declarations) (s : Stylesheet) : Prop :=
  ∃ used, s.Numbers used ∧
    used.map Declarations.text = (asked.map Declarations.text).eraseDups

theorem isNumberedFor_empty : IsNumberedFor [] empty := ⟨[], ⟨rfl, List.nodup_nil⟩, rfl⟩

namespace IsNumberedFor

variable {asked : List Declarations} {s : Stylesheet}

theorem add (h : IsNumberedFor asked s) (name : String) (d : Declarations) :
    IsNumberedFor asked (s.add name d) := by
  obtain ⟨used, hused, htexts⟩ := h
  refine ⟨used, ⟨?_, hused.distinct⟩, htexts⟩
  rw [Stylesheet.add, List.filter_append, hused.rules]
  exact List.append_nil _

/-- **One more request.** -/
theorem request (h : IsNumberedFor asked s) (d : Declarations) :
    (s.request d).1 = .numbered (numberOf (asked ++ [d]) d) ∧
      IsNumberedFor (asked ++ [d]) (s.request d).2 := by
  obtain ⟨used, hused, htexts⟩ := h
  rcases hused.request d with ⟨n, d', hn, hd', htext, hnext⟩ | ⟨hn, hnext⟩
  · have hplace : (asked.map Declarations.text).eraseDups[n]? = some d.text := by
      rw [← htexts, List.getElem?_map, hd', Option.map_some, htext]
    obtain ⟨hlt, hget⟩ := List.getElem?_eq_some_iff.mp hplace
    have hold : d.text ∈ asked.map Declarations.text :=
      List.mem_eraseDups.mp (List.mem_of_getElem? hplace)
    have hsame : ((asked ++ [d]).map Declarations.text).eraseDups =
        (asked.map Declarations.text).eraseDups := by
      rw [List.map_append, List.map_singleton, eraseDups_concat, if_pos hold]
    refine ⟨?_, used, hnext, htexts.trans hsame.symm⟩
    rw [hn, numberOf, hsame, ← hget, (nodup_eraseDups _).idxOf_getElem]
  · have hdistinct := hnext.distinct
    rw [List.map_append, List.map_singleton, List.nodup_append] at hdistinct
    have hnew : d.text ∉ asked.map Declarations.text := by
      intro hmem
      rw [← List.mem_eraseDups, ← htexts] at hmem
      exact hdistinct.2.2 _ hmem _ (List.mem_singleton_self _) rfl
    refine ⟨?_, used ++ [d], hnext, ?_⟩
    · rw [hn, numberOf_new hnew, ← htexts, List.length_map]
    · rw [List.map_append, List.map_append, List.map_singleton, eraseDups_concat, if_neg hnew,
        htexts]

/-- **A run of requests and added rules.**  The classes that it gets are the numbers of the
    texts that it asks for. -/
theorem run (h : IsNumberedFor asked s) (steps : List Step) :
    IsNumberedFor (asked ++ requested steps) (s.after steps) ∧
      s.given steps = (requested steps).map fun d =>
        (d, .numbered (numberOf (asked ++ requested steps) d)) := by
  induction steps generalizing asked s with
  | nil => exact ⟨by rwa [requested, List.filterMap_nil, List.append_nil], rfl⟩
  | cons step rest ih =>
    cases step with
    | request d =>
      obtain ⟨hclass, hnext⟩ := h.request d
      obtain ⟨hafter, hgiven⟩ := ih hnext
      have hrequested : requested (.request d :: rest) = d :: requested rest := rfl
      have hasked : asked ++ requested (.request d :: rest) =
          (asked ++ [d]) ++ requested rest := by
        rw [hrequested, List.append_assoc, List.singleton_append]
      have hmem : d ∈ asked ++ [d] := List.mem_append_right asked (List.mem_singleton_self d)
      refine ⟨by rw [hasked]; exact hafter, ?_⟩
      rw [hasked, hrequested, List.map_cons, numberOf_append hmem, ← hclass, ← hgiven]
      rfl
    | add name d => exact ih (h.add name d)

/-- The rule of a class that was given. -/
theorem exists_rule (h : IsNumberedFor asked s) {d : Declarations} (hd : d ∈ asked) :
    ∃ d', d'.text = d.text ∧ ⟨.numbered (numberOf asked d), d'⟩ ∈ s.rules := by
  obtain ⟨used, hused, htexts⟩ := h
  have hmem : d.text ∈ used.map Declarations.text := by
    rw [htexts, List.mem_eraseDups]
    exact List.mem_map_of_mem hd
  have hplace : (used.map Declarations.text)[numberOf asked d]? = some d.text := by
    rw [numberOf, ← htexts]
    exact List.getElem?_idxOf hmem
  rw [List.getElem?_map, Option.map_eq_some_iff] at hplace
  obtain ⟨d', hd', htext⟩ := hplace
  exact ⟨d', htext, hused.mem_rules.mpr hd'⟩

end IsNumberedFor

/-! ### A table and a counter -/

/-- A stylesheet that keeps beside its rules which text has which class, and the number that the
    next new rule gets. -/
structure Indexed where
  rules : List Rule
  classes : List (String × ClassName)
  next : Nat

namespace Indexed

def empty : Indexed := ⟨[], [], 0⟩

/-- The class for declarations.  The rules are not looked at. -/
def request (i : Indexed) (d : Declarations) : ClassName × Indexed :=
  match i.classes.lookup d.text with
  | some c => (c, i)
  | none =>
    (.numbered i.next, ⟨i.rules ++ [⟨.numbered i.next, d⟩],
      i.classes ++ [(d.text, .numbered i.next)], i.next + 1⟩)

def add (i : Indexed) (name : String) (d : Declarations) : Indexed :=
  { i with rules := i.rules ++ [⟨.named name, d⟩] }

def run (i : Indexed) (steps : List Step) : List (Declarations × ClassName) × Indexed :=
  runWith request add i steps

/-- The class of a rule under the text of its declarations, if it has a number. -/
def entry? (rule : Rule) : Option (String × ClassName) :=
  if isNumbered rule then some (rule.declarations.text, rule.className) else none

/-- The table and the counter that fit the rules of a stylesheet. -/
def of (s : Stylesheet) : Indexed := ⟨s.rules, s.rules.filterMap entry?, s.nextNumber⟩

/-- **Looking a text up in the table finds what a search of the rules finds.** -/
theorem lookup_of (s : Stylesheet) (d : Declarations) :
    (of s).classes.lookup d.text = s.classOf? d := by
  obtain ⟨rules⟩ := s
  simp only [of, classOf?]
  induction rules with
  | nil => rfl
  | cons rule rest ih =>
    obtain ⟨name | n, d'⟩ := rule
    · exact ih
    · have hentry : entry? ⟨.numbered n, d'⟩ = some (d'.text, .numbered n) := rfl
      rw [List.filterMap_cons_some hentry, Json.lookup_cons_eq, List.find?_cons]
      by_cases htext : d'.text = d.text
      · have hwith : isNumberedWith d.text ⟨.numbered n, d'⟩ = true := beq_iff_eq.mpr htext
        rw [hwith, if_pos htext.symm]
        rfl
      · have hwith : isNumberedWith d.text ⟨.numbered n, d'⟩ = false := beq_false_of_ne htext
        rw [hwith, if_neg (Ne.symm htext)]
        exact ih

/-- The table and the counter fit again after a request. -/
theorem request_of (s : Stylesheet) (d : Declarations) :
    (of s).request d = ((s.request d).1, of (s.request d).2) := by
  rw [request, lookup_of, Stylesheet.request]
  cases s.classOf? d with
  | some c => rfl
  | none =>
    have htable : (s.rules ++ [(⟨.numbered s.nextNumber, d⟩ : Rule)]).filterMap entry? =
        s.rules.filterMap entry? ++ [(d.text, .numbered s.nextNumber)] :=
      List.filterMap_append
    have hnext : nextNumber ⟨s.rules ++ [⟨.numbered s.nextNumber, d⟩]⟩ = s.nextNumber + 1 :=
      List.countP_append
    simp only [of, htable, hnext]

/-- The table and the counter fit after a rule is added, as they are. -/
theorem add_of (s : Stylesheet) (name : String) (d : Declarations) :
    (of s).add name d = of (s.add name d) := by
  have htable : (s.add name d).rules.filterMap entry? = s.rules.filterMap entry? :=
    List.filterMap_append.trans (List.append_nil _)
  have hnext : (s.add name d).nextNumber = s.nextNumber := List.countP_append
  rw [of, of, htable, hnext]
  rfl

/-- **Table and counter fit the rules throughout a run,** and give the same classes. -/
theorem run_of (s : Stylesheet) (steps : List Step) :
    (of s).run steps = (s.given steps, of (s.after steps)) :=
  runWith_view Stylesheet.request Stylesheet.add request add request_of add_of s steps

end Indexed

/-! ### What holds throughout a run -/

theorem requested_filter (steps : List Step) :
    requested (steps.filter Step.isRequest) = requested steps := by
  induction steps with
  | nil => rfl
  | cons step rest ih =>
    cases step with
    | request d => exact congrArg (d :: ·) ih
    | add name d => exact ih

theorem mem_names_after {steps : List Step} {name : String}
    (h : name ∈ (empty.after steps).names) : ∃ d, .add name d ∈ steps := by
  rw [names_after] at h
  obtain ⟨step, hstep, hname⟩ := List.mem_filterMap.mp h
  cases step with
  | request d => cases hname
  | add name' d =>
    obtain rfl := Option.some.inj hname
    exact ⟨d, hstep⟩

/-- **A class once given keeps its meaning.**  For every run of requests and added rules, where
    no rule is added under a name that is a class with a number: a text that was not asked for
    before gets the number of different texts so far.  Two requests get the same class just if
    they are for the same text.  At every moment, the rules are those of each earlier moment with
    more at the end, and each class given so far has exactly one rule, with the text that it was
    given for.  The classes are the same without the added rules.  A stylesheet that looks in a
    table and at a counter gives the same classes, and its table and counter fit the rules. -/
theorem classes_interleaved (steps : List Step)
    (hnames : ∀ name d, .add name d ∈ steps → ∀ n : Nat, name ≠ "fg-" ++ toString n) :
    (∀ before d later, steps = before ++ .request d :: later → d.text ∉ requestedTexts before →
      ((empty.after before).request d).1.text =
        "fg-" ++ toString (requestedTexts before).eraseDups.length) ∧
    (∀ x ∈ empty.given steps, ∀ y ∈ empty.given steps,
      x.2.text = y.2.text ↔ x.1.text = y.1.text) ∧
    (∀ earlier later, steps = earlier ++ later →
      (empty.after earlier).rules <+: (empty.after steps).rules ∧
      ∀ x ∈ empty.given earlier, ∃ d, d.text = x.1.text ∧
        HasOneRule (empty.after earlier).entries x.2.text d) ∧
    empty.given steps = empty.given (steps.filter Step.isRequest) ∧
    Indexed.run .empty steps = (empty.given steps, .of (empty.after steps)) := by
  have hgiven : ∀ steps, empty.given steps = (requested steps).map fun d =>
      (d, .numbered (numberOf (requested steps) d)) := fun steps =>
    (isNumberedFor_empty.run steps).2
  refine ⟨?_, ?_, ?_, ?_, Indexed.run_of empty steps⟩
  · intro before d later _ hnew
    obtain ⟨hclass, -⟩ := (isNumberedFor_empty.run before).1.request d
    rw [hclass, List.nil_append, numberOf_new hnew]
    rfl
  · rw [hgiven]
    intro x hx y hy
    obtain ⟨d, hd, rfl⟩ := List.mem_map.mp hx
    obtain ⟨d', -, rfl⟩ := List.mem_map.mp hy
    rw [← numberOf_eq_iff hd]
    exact ⟨ClassName.text_numbered_injective, fun h => by rw [h]⟩
  · rintro earlier later rfl
    refine ⟨by rw [after_append]; exact prefix_after _ _, fun x hx => ?_⟩
    rw [hgiven] at hx
    obtain ⟨d, hd, rfl⟩ := List.mem_map.mp hx
    obtain ⟨d', htext, hrule⟩ := (isNumberedFor_empty.run earlier).1.exists_rule hd
    have hempty : empty.IsSequential := rfl
    refine ⟨d', htext, hasOneRule_numbered (isSequential_after hempty earlier) ?_ hrule⟩
    intro name hname
    obtain ⟨e, hadd⟩ := mem_names_after hname
    exact hnames name e (List.mem_append_left later hadd)
  · rw [hgiven, hgiven, requested_filter]

/-- Different declarations of one text share a class, and a rule between them under a name that
    only looks like a class does not matter. -/
theorem classes_interleaved_shared :
    let steps : List Step := [.request ⟨[("a", "1; b: 2")]⟩, .add "fg-x" ⟨[("a", "1")]⟩,
      .request ⟨[("a", "1"), ("b", "2")]⟩, .request ⟨[("a", "1")]⟩]
    (∀ name d, .add name d ∈ steps → ∀ n : Nat, name ≠ "fg-" ++ toString n) ∧
      (empty.given steps).map (fun x => x.2.text) = ["fg-0", "fg-0", "fg-1"] ∧
      ∀ x ∈ empty.given steps, ∃ d, d.text = x.1.text ∧
        HasOneRule (empty.after steps).entries x.2.text d := by
  intro steps
  have hnames : ∀ name d, .add name d ∈ steps → ∀ n : Nat, name ≠ "fg-" ++ toString n := by
    intro name d hadd n heq
    obtain ⟨rfl, -⟩ : name = "fg-x" ∧ d = ⟨[("a", "1")]⟩ := by simpa [steps] using hadd
    have htail : "x" = toString n := (String.append_right_inj "fg-").mp heq
    have hmem : 'x' ∈ Nat.toDigits 10 n := by
      have hchars : ['x'] = (toString n).toList := congrArg String.toList htail
      rw [Nat.toString_eq_ofList_toDigits, String.toList_ofList] at hchars
      rw [← hchars]
      exact List.mem_singleton_self 'x'
    have hdigit : 'x'.isDigit = true := Nat.isDigit_of_mem_toDigits (by decide) (by decide) hmem
    exact absurd hdigit (by decide)
  refine ⟨hnames, by decide, ?_⟩
  exact ((classes_interleaved steps hnames).2.2.1 steps [] (List.append_nil steps).symm).2

end DesignMarkup.Stylesheet
