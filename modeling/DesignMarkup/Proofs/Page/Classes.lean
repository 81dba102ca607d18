/-
  DesignMarkup/Proofs/Page/Classes.lean
  =====================================
  **The stylesheet of a page is complete, and nothing in it is idle.**  Every element below
  the container of a page has a class and no style of its own; the rules are the one of the
  container and then one for each list of declarations that some element has, numbered in
  the order in which the elements stand on the page.

  The walk over a styled tree is a run of requests, one for each element, from left to
  right (`writesRun_styledAll`).  What the run does to the numbers is said without trees in
  `Numbers.requestAll`; here remains that declarations with the same text are the same.
-/
import DesignMarkup.Proofs.Page.Bearing
import DesignMarkup.Proofs.Stylesheet.Numbering
import Mathlib.Data.Finset.Dedup
import Mathlib.Data.Finset.Card

namespace DesignMarkup

open Markup
open Stylesheet (requestAll requestAll_append CountsUpFrom)

/-! ### Elements from left to right -/

namespace Markup

mutual

/-- The opening tags of an element and of everything in it, from left to right. -/
def Element.tags : Element → List (String × List Attribute)
  | .void tag attributes | .leaf tag attributes _ => [(tag, attributes)]
  | .branch tag attributes children => (tag, attributes) :: tagsOfAll children

def tagsOfAll : List Element → List (String × List Attribute)
  | [] => []
  | e :: rest => e.tags ++ tagsOfAll rest

end

end Markup

namespace Styled

mutual

/-- An element and everything in it, from left to right. -/
def inOrder : Styled → List Styled
  | ⟨role, label, declarations, children⟩ =>
    ⟨role, label, declarations, children⟩ :: inOrderAll children

def inOrderAll : List Styled → List Styled
  | [] => []
  | e :: rest => inOrder e ++ inOrderAll rest

end

mutual

theorem every_inOrder {P : Declarations → Prop} :
    ∀ e : Styled, e.Every P → ∀ e' ∈ inOrder e, P e'.declarations
  | ⟨_, _, _, children⟩, h, e', he' => by
    rcases List.mem_cons.mp he' with rfl | hinside
    · exact h.1
    · exact everyAll_inOrderAll children h.2 e' hinside

theorem everyAll_inOrderAll {P : Declarations → Prop} :
    ∀ content : List Styled, EveryAll P content → ∀ e ∈ inOrderAll content, P e.declarations
  | [], _, _, he => absurd he List.not_mem_nil
  | first :: rest, h, e, he => by
    rcases List.mem_append.mp he with hfirst | hrest
    · exact every_inOrder first h.1 e hfirst
    · exact everyAll_inOrderAll rest h.2 e hrest

end

end Styled

/-- The names of the attributes that an element has besides its class. -/
def Role.attributeNames : Role → List String
  | .image => ["src", "alt", "data-figma-name"]
  | .icon => ["src", "alt"]
  | .text | .container => []

/-- A tag for an element: its own attributes, a class, and no more. -/
structure IsClassed (e : Styled) (tag : String × List Attribute) : Prop where
  name : tag.1 = e.role.tag
  attributes : tag.2.map Prod.fst = e.role.attributeNames ++ ["class"]

/-! ### The walk is a run of requests -/

theorem length_requestAll (styles : List Declarations) (s : Stylesheet) :
    (requestAll styles s).1.length = styles.length := by
  induction styles generalizing s with
  | nil => rfl
  | cons d rest ih => exact congrArg (· + 1) (ih (s.request d).2)

section Walk

variable (o : Options)

/-- The tag of an element that was given the class `name`. -/
def classedTag (e : Styled) (name : ClassName) : String × List Attribute :=
  (e.role.tag, (o.ownAttributes e.role e.label ++ [("class", name.text)]).map unquotedAttribute)

theorem isClassed_classedTag (e : Styled) (name : ClassName) : IsClassed e (classedTag o e name) := by
  obtain ⟨role, label, declarations, children⟩ := e
  constructor
  · rfl
  · cases role <;> rfl

theorem lookup_classedTag (e : Styled) (n : Nat) :
    (classedTag o e (.numbered n)).2.lookup "class" = some (ClassName.numbered n).text := by
  have hown := lookup_ownAttributes o e.role e.label "class" (Or.inr rfl)
  have hclass : [("class", (ClassName.numbered n).text)].map unquotedAttribute =
      [("class", (ClassName.numbered n).text)] := by
    rw [List.map_singleton, unquotedAttribute, unquoted_numbered]
  rw [classedTag, List.map_append, List.lookup_append, hown, Option.none_or, hclass,
    List.lookup_cons_self]

/-- Elements whose styles are requested one after the other, and a tag for each of the
    classes that are given. -/
structure WritesRun (shown : List Styled) (tags : List (String × List Attribute))
    (sheet sheet' : Stylesheet) : Prop where
  sheet_eq : sheet' = (requestAll (shown.map (·.declarations)) sheet).2
  tags_eq : tags =
    List.zipWith (classedTag o) shown (requestAll (shown.map (·.declarations)) sheet).1

namespace WritesRun

variable {o} {shown shown' : List Styled} {tags tags' : List (String × List Attribute)}
  {sheet sheet' sheet'' : Stylesheet}

theorem append (h : WritesRun o shown tags sheet sheet')
    (h' : WritesRun o shown' tags' sheet' sheet'') :
    WritesRun o (shown ++ shown') (tags ++ tags') sheet sheet'' := by
  obtain ⟨rfl, rfl⟩ := h
  obtain ⟨rfl, rfl⟩ := h'
  constructor
  · rw [List.map_append, requestAll_append]
  · rw [List.map_append, requestAll_append, List.zipWith_append]
    rw [length_requestAll, List.length_map]

theorem cons {e : Styled} (h : WritesRun o shown tags (sheet.request e.declarations).2 sheet') :
    WritesRun o (e :: shown) (classedTag o e (sheet.request e.declarations).1 :: tags) sheet
      sheet' := by
  obtain ⟨rfl, rfl⟩ := h
  constructor <;> rfl

end WritesRun

variable {o}

mutual

theorem writesRun_styled? (ho : o.styleMode = .stylesheet) :
    ∀ (n : Node) (s : Surroundings) (sheet : Stylesheet),
    n.props.isRenderable = true → ∃ e, n.styled? s = some e ∧
      WritesRun o e.inOrder (e.markup o sheet).1.unquoted.tags sheet (e.markup o sheet).2
  | ⟨p, children⟩, s, sheet, h => by
    obtain ⟨box, -, he⟩ := Node.styled?_eq_some h children s
    have hrequest := Options.styleAttribute_stylesheet ho
      (Style.isEmpty_resolve p box (Role.ofProps p) s) sheet
    refine ⟨_, he, ?_⟩
    simp only [Styled.markup, Styled.inOrder, hrequest]
    cases hrole : Role.ofProps p with
    | text => exact .cons ⟨rfl, rfl⟩
    | image => exact .cons ⟨rfl, rfl⟩
    | icon => exact .cons ⟨rfl, rfl⟩
    | container => exact .cons (writesRun_styledAll ho children (s.within p) _)

/-- **Writing the elements of several nodes is a run of requests,** from left to right. -/
theorem writesRun_styledAll (ho : o.styleMode = .stylesheet) :
    ∀ (nodes : List Node) (s : Surroundings) (sheet : Stylesheet),
    WritesRun o (Styled.inOrderAll (Node.styledAll s nodes))
      (tagsOfAll (unquotedAll (Styled.markupAll o (Node.styledAll s nodes) sheet).1)) sheet
      (Styled.markupAll o (Node.styledAll s nodes) sheet).2
  | [], _, _ => ⟨rfl, rfl⟩
  | n :: rest, s, sheet => by
    by_cases h : n.props.isRenderable = true
    · obtain ⟨e, he, hfirst⟩ := writesRun_styled? ho n s sheet h
      rw [Node.styledAll_cons_some he]
      exact hfirst.append (writesRun_styledAll ho rest s (e.markup o sheet).2)
    · rw [Node.styledAll_cons_hidden h]
      exact writesRun_styledAll ho rest s sheet

end

end Walk

/-! ### Numbers and styles -/

section Numbers

variable {distinct styles : List Declarations} {numbers : List Nat}

/-- Plain declarations are told apart by their texts. -/
theorem forall₂_number (hdistinct : ∀ d ∈ distinct, d.ArePlain) (hstyles : ∀ d ∈ styles, d.ArePlain)
    (h : List.Forall₂ (fun n d => ∃ d', distinct[n]? = some d' ∧ d'.text = d.text) numbers styles) :
    List.Forall₂ (fun n d => distinct[n]? = some d) numbers styles := by
  induction h with
  | nil => exact .nil
  | @cons n d _ _ hfirst _ ih =>
    obtain ⟨d', hd', htext⟩ := hfirst
    have hsame : d' = d := Declarations.eq_of_text (hdistinct d' (List.mem_of_getElem? hd'))
      (hstyles d List.mem_cons_self) htext
    refine .cons ?_ (ih fun e he => hstyles e (List.mem_cons_of_mem d he))
    rw [hd', hsame]

variable (h : List.Forall₂ (fun n d => distinct[n]? = some d) numbers styles)
include h

theorem getElem?_styles (i : Nat) : styles[i]? = (numbers[i]?).bind fun n => distinct[n]? := by
  induction h generalizing i with
  | nil => simp
  | cons hfirst _ ih =>
    cases i with
    | zero => simp [hfirst]
    | succ i => simpa using ih i

theorem lt_of_mem_numbers : ∀ n ∈ numbers, n < distinct.length := by
  intro n hn
  obtain ⟨i, hi⟩ := List.mem_iff_getElem?.mp hn
  have hlt : i < styles.length := h.length_eq ▸ (List.getElem?_eq_some_iff.mp hi).1
  have hstyle := getElem?_styles h i
  rw [hi, List.getElem?_eq_getElem hlt] at hstyle
  exact (List.getElem?_eq_some_iff.mp hstyle.symm).1

/-- Elements have the same number just if they have the same styles. -/
theorem getElem?_numbers_eq_iff (hnodup : distinct.Nodup) (i j : Nat) :
    numbers[i]? = numbers[j]? ↔ styles[i]? = styles[j]? := by
  have hlt := lt_of_mem_numbers h
  rw [getElem?_styles h, getElem?_styles h]
  constructor
  · intro heq
    rw [heq]
  · intro heq
    cases hi : numbers[i]? with
    | none =>
      cases hj : numbers[j]? with
      | none => rfl
      | some m =>
        have hm := List.getElem?_eq_getElem (hlt m (List.mem_of_getElem? hj))
        simp [hi, hj, hm] at heq
    | some n =>
      have hn := hlt n (List.mem_of_getElem? hi)
      cases hj : numbers[j]? with
      | none => simp [hi, hj, List.getElem?_eq_getElem hn] at heq
      | some m =>
        rw [hi, hj, Option.bind_some, Option.bind_some] at heq
        rw [(List.getElem?_inj hn hnodup).mp heq]

theorem card_styles (hnodup : distinct.Nodup) (hmem : ∀ d ∈ distinct, d ∈ styles) :
    distinct.length = styles.toFinset.card := by
  have hsame : distinct.toFinset = styles.toFinset := by
    ext d
    rw [List.mem_toFinset, List.mem_toFinset]
    constructor
    · exact hmem d
    · intro hd
      obtain ⟨i, hi⟩ := List.mem_iff_getElem?.mp hd
      rw [getElem?_styles h] at hi
      obtain ⟨n, -, hn⟩ := Option.bind_eq_some_iff.mp hi
      exact List.mem_of_getElem? hn
  rw [← List.toFinset_card_of_nodup hnodup, hsame]

end Numbers

/-- Each tag of a run is that of its element, and names the class with its number. -/
theorem classedTags (o : Options) {shown : List Styled} {numbers : List Nat}
    (h : numbers.length = shown.length) :
    let tags := List.zipWith (classedTag o) shown (numbers.map .numbered)
    List.Forall₂ IsClassed shown tags ∧
      tags.map (fun tag => tag.2.lookup "class") =
        numbers.map fun n => some (ClassName.numbered n).text := by
  induction shown generalizing numbers with
  | nil =>
    obtain rfl := List.length_eq_zero_iff.mp h
    exact ⟨.nil, rfl⟩
  | cons e rest ih =>
    obtain ⟨n, more, rfl⟩ := List.exists_cons_of_length_eq_add_one h
    obtain ⟨hclassed, hnames⟩ := ih (Nat.succ.inj h)
    constructor
    · exact .cons (isClassed_classedTag o e (.numbered n)) hclassed
    · simp only [List.map_cons, List.zipWith_cons_cons, lookup_classedTag, hnames]

/-! ### The page -/

/-- The class of the element that stands at a place, counted from left to right. -/
def classAt (elements : List Element) (i : Nat) : Option (Option String) :=
  ((tagsOfAll elements).map fun tag => tag.2.lookup "class")[i]?

theorem classAt_eq_iff {elements : List Element} {numbers : List Nat}
    (h : (tagsOfAll elements).map (fun tag => tag.2.lookup "class") =
      numbers.map fun n => some (ClassName.numbered n).text) (i j : Nat) :
    classAt elements i = classAt elements j ↔ numbers[i]? = numbers[j]? := by
  have hinjective : Function.Injective fun n : Nat => some (ClassName.numbered n).text :=
    fun m n hsame => ClassName.text_numbered_injective (Option.some.inj hsame)
  rw [classAt, classAt, h, List.getElem?_map, List.getElem?_map]
  exact (Option.map_injective hinjective).eq_iff

section Page

variable (root : Node) {o : Options}

theorem plain_inOrderAll (coordinates : Coordinates) :
    ∀ d ∈ (Styled.inOrderAll (root.content coordinates)).map (·.declarations), d.ArePlain := by
  intro d hd
  obtain ⟨e, he, rfl⟩ := List.mem_map.mp hd
  exact Styled.everyAll_inOrderAll _
    (Node.everyAll_styledAll Style.plain_resolve root.children _) e he

/-- The run of requests of a page: it starts after the rule of the container. -/
theorem writesRun_page (ho : o.styleMode = .stylesheet) :
    pageAttributes root o = [("class", "figma-root")] ∧
      WritesRun o (Styled.inOrderAll (root.content o.coordinates))
        (tagsOfAll (pageElements root o))
        (Stylesheet.empty.add rootClass (Style.root root.props)) (pageSheet root o) := by
  have hstart : Session.rootAttributes o (Style.root root.props) .empty =
      ([("class", rootClass)], Stylesheet.empty.add rootClass (Style.root root.props)) := by
    rw [Session.rootAttributes, ho]
  have hclass : [("class", rootClass)].map unquotedAttribute = [("class", "figma-root")] := by
    decide
  rw [pageAttributes, pageElements, pageSheet, hstart]
  constructor
  · exact hclass
  · exact writesRun_styledAll ho root.children (.below o.coordinates root.props) _

/-- **The rules of a page and the numbers of its elements.**  After the rule of the container
    there is one for each of the different styles, in the order of their numbers. -/
theorem numbering_page {styles : List Declarations} (hplain : ∀ d ∈ styles, d.ArePlain)
    {sheet : Stylesheet} (hsheet : sheet =
      (requestAll styles (Stylesheet.empty.add rootClass (Style.root root.props))).2) :
    ∃ (distinct : List Declarations) (numbers : List Nat), distinct.Nodup ∧
      (∀ d ∈ distinct, d ∈ styles) ∧
      sheet.entries = ("figma-root", Style.root root.props) ::
        distinct.mapIdx (fun n d => ((ClassName.numbered n).text, d)) ∧
      (requestAll styles (Stylesheet.empty.add rootClass (Style.root root.props))).1 =
        numbers.map .numbered ∧
      CountsUpFrom 0 numbers ∧ List.Forall₂ (fun n d => distinct[n]? = some d) numbers styles := by
  have hstart : (Stylesheet.empty.add rootClass (Style.root root.props)).Numbers [] :=
    ⟨rfl, List.nodup_nil⟩
  obtain ⟨distinct, numbers, -, hfinal, hnames, hcount, hall, hmem⟩ := hstart.requestAll styles
  have hused : ∀ d ∈ distinct, d ∈ styles := fun d hd => (hmem d hd).resolve_left List.not_mem_nil
  refine ⟨distinct, numbers, hfinal.distinct.of_map _, hused, ?_, hnames, hcount,
    forall₂_number (fun d hd => hplain d (hused d hd)) hplain hall⟩
  -- nothing but numbered rules is added to the rule that is there at the start
  have hrules : sheet.rules = ⟨.named rootClass, Style.root root.props⟩ ::
      distinct.mapIdx fun n d => ⟨.numbered n, d⟩ := by
    obtain ⟨added, hadded, hnumbered⟩ := Stylesheet.rules_requestAll styles
      (Stylesheet.empty.add rootClass (Style.root root.props))
    have hroot : (Stylesheet.empty.add rootClass (Style.root root.props)).rules.filter
        Stylesheet.isNumbered = [] := rfl
    rw [← hfinal.rules, hadded, List.filter_append, hroot, List.filter_eq_self.mpr hnumbered,
      hsheet, hadded]
    rfl
  rw [Stylesheet.entries, hrules, List.map_cons, List.mapIdx_eq_zipIdx_map,
    List.mapIdx_eq_zipIdx_map, List.map_map]
  rfl

end Page

/-- **The stylesheet of a page is complete and minimal.**  The container has its class and no
    other attribute, and each element has besides its own attributes a class and no other.
    The rules are the one of the container and then one for each of the different styles of
    elements, numbered from zero.  Each element has the number of its styles, so that two
    have the same class just if they have the same styles, and from left to right each number
    is one that came before or the next. -/
theorem classes_compileRoot (root : Node) (coordinates : Coordinates)
    (urls : List (String × String)) :
    let output := compileRoot root ⟨.stylesheet, coordinates, urls⟩
    let shown := Styled.inOrderAll (root.content coordinates)
    let styles := shown.map (·.declarations)
    ∃ (elements : List Element) (distinct : List Declarations) (numbers : List Nat),
      Markup.read? output.html = some [.branch "div" [("class", "figma-root")] elements] ∧
      Stylesheet.read? output.css = some (("figma-root", Style.root root.props) ::
        distinct.mapIdx fun n d => ((ClassName.numbered n).text, d)) ∧
      distinct.length = styles.toFinset.card ∧
      List.Forall₂ IsClassed shown (tagsOfAll elements) ∧
      (tagsOfAll elements).map (fun tag => tag.2.lookup "class") =
        numbers.map (fun n => some (ClassName.numbered n).text) ∧
      List.Forall₂ (fun n d => distinct[n]? = some d) numbers styles ∧
      (∀ i j : Nat, classAt elements i = classAt elements j ↔ styles[i]? = styles[j]?) ∧
      CountsUpFrom 0 numbers := by
  intro output shown styles
  let o : Options := ⟨.stylesheet, coordinates, urls⟩
  have hplain : ∀ d ∈ styles, d.ArePlain := plain_inOrderAll root coordinates
  obtain ⟨hroot, hrun⟩ := @writesRun_page root o rfl
  obtain ⟨distinct, numbers, hnodup, hused, hentries, hnames, hcount, hnumber⟩ :=
    numbering_page root hplain hrun.sheet_eq
  have hread : Markup.read? output.html =
      some [.branch "div" [("class", "figma-root")] (pageElements root o)] := by
    rw [← hroot]
    exact read?_page root o
  have hcss : Stylesheet.read? output.css = some (("figma-root", Style.root root.props) ::
      distinct.mapIdx fun n d => ((ClassName.numbered n).text, d)) := by
    rw [← hentries]
    exact read?_css root o
  have hlength : numbers.length = shown.length := hnumber.length_eq.trans (List.length_map _)
  obtain ⟨hclassed, hlookup⟩ := classedTags o hlength
  rw [← hnames, ← hrun.tags_eq] at hclassed hlookup
  refine ⟨pageElements root o, distinct, numbers, hread, hcss,
    card_styles hnumber hnodup hused, hclassed, hlookup, hnumber, fun i j => ?_, hcount⟩
  exact (classAt_eq_iff hlookup i j).trans (getElem?_numbers_eq_iff hnumber hnodup i j)

end DesignMarkup
