/-
  DesignMarkup/Proofs/Stylesheet/Reading.lean
  ===========================================
  **A reader for stylesheets.**  A stylesheet is read line by line: a line that opens
  the rule of a class, lines with one declaration each, and a line that closes the rule.
  An empty line may stand between rules.

  `Stylesheet.read?_text` says that a stylesheet of plain declarations reads back to
  its rules: the classes as they are written, and under each its properties and values
  in order.
-/
import DesignMarkup.Proofs.Style.Plain
import DesignMarkup.Stylesheet

namespace DesignMarkup.Stylesheet

/-- A class as it is written, with its declarations. -/
abbrev Entry := String × Declarations

inductive Line where
  | blank
  | opening (className : List Char)
  | declaration (property value : List Char)
  | closing
deriving DecidableEq, Repr

/-- What a line is.  A class ends at the first space, a property at the first colon and
    a value at the first semicolon, which has to be the last character. -/
def readLine : List Char → Option Line
  | [] => some .blank
  | '.' :: rest =>
    if rest.dropWhile (· != ' ') = [' ', '\x7b'] then some (.opening (rest.takeWhile (· != ' ')))
    else none
  | ' ' :: ' ' :: rest =>
    match rest.dropWhile (· != ':') with
    | ':' :: ' ' :: value =>
      if value.dropWhile (· != ';') = [';'] then
        some (.declaration (rest.takeWhile (· != ':')) (value.takeWhile (· != ';')))
      else none
    | _ => none
  | ['\x7d'] => some .closing
  | _ => none

/-- The rules that were read, and the one that is open. -/
structure Progress where
  done : List Entry
  current : Option (String × List (String × String))

namespace Progress

def start : Progress := ⟨[], none⟩

def take (p : Progress) (line : List Char) : Option Progress :=
  match p.current, readLine line with
  | none, some .blank => some p
  | none, some (.opening name) => some ⟨p.done, some (String.ofList name, [])⟩
  | some (name, pairs), some (.declaration property value) =>
    some ⟨p.done, some (name, pairs ++ [(String.ofList property, String.ofList value)])⟩
  | some (name, pairs), some .closing => some ⟨p.done ++ [(name, ⟨pairs⟩)], none⟩
  | _, _ => none

def finish (p : Progress) : Option (List Entry) :=
  if p.current.isNone then some p.done else none

end Progress

def read? (text : String) : Option (List Entry) := do
  let p ← (text.toList.splitOn '\n').foldlM Progress.take .start
  p.finish

/-- What a stylesheet says, rule by rule. -/
def entries (s : Stylesheet) : List Entry :=
  s.rules.map fun rule => (rule.className.text, rule.declarations)

/-! ### The lines of a stylesheet -/

def openingLine (className : String) : List Char := '.' :: (className.toList ++ [' ', '\x7b'])

def declarationLine (pair : String × String) : List Char :=
  ' ' :: ' ' :: (pair.1.toList ++ ':' :: ' ' :: (pair.2.toList ++ [';']))

def ruleLines (rule : Rule) : List (List Char) :=
  openingLine rule.className.text :: rule.declarations.toList.map declarationLine ++ [['\x7d']]

/-- A character that ends neither a class nor a line. -/
def isClassChar (c : Char) : Bool := c != ' ' && c != '\n'

/-- A rule whose text can be taken apart again. -/
structure IsReadableRule (rule : Rule) : Prop where
  className : ∀ c ∈ rule.className.text.toList, isClassChar c = true
  declarations : rule.declarations.ArePlain

theorem toList_lineText (pair : String × String) :
    (lineText pair).toList = declarationLine pair ++ ['\n'] := by
  simp [lineText, declarationLine]

theorem toList_ruleText (rule : Rule) :
    (ruleText rule).toList = (ruleLines rule).flatMap (· ++ ['\n']) := by
  simp [ruleText, ruleLines, openingLine, String.toList_join, List.flatMap_map, toList_lineText]

theorem toList_text (s : Stylesheet) :
    s.text.toList = (s.rules.flatMap ruleLines).flatMap (· ++ ['\n']) := by
  rw [text, String.toList_join, List.flatMap_map, List.flatMap_assoc]
  simp only [toList_ruleText]

/-- Parts that end in a stop are told apart again; an empty part comes after. -/
theorem splitOn_stopped {stop : Char} {parts : List (List Char)}
    (h : ∀ part ∈ parts, stop ∉ part) :
    (parts.flatMap (· ++ [stop])).splitOn stop = parts ++ [[]] := by
  induction parts with
  | nil => rfl
  | cons part rest ih =>
    rw [List.flatMap_cons, List.append_assoc, List.singleton_append,
      List.splitOn_append_cons_self_of_not_mem (h part List.mem_cons_self),
      ih fun l hl => h l (List.mem_cons_of_mem part hl), List.cons_append]

/-! ### What plain text cannot contain -/

theorem ne_of_plain {text : String} (h : IsPlain text) {c d : Char} (hc : c ∈ text.toList)
    (hd : isPlainChar d = false) : c ≠ d := by
  rintro rfl
  exact absurd (h c hc) (by simp [hd])

theorem newline_notMem_ruleLines {rule : Rule} (h : IsReadableRule rule) :
    ∀ line ∈ ruleLines rule, '\n' ∉ line := by
  have hplain : ∀ text, IsPlain text → '\n' ∉ text.toList := fun text ht hc =>
    ne_of_plain ht hc (by decide) rfl
  intro line hline hc
  simp only [ruleLines, List.cons_append, List.mem_cons, List.mem_append, List.mem_map,
    List.not_mem_nil, or_false] at hline
  rcases hline with rfl | ⟨pair, hpair, rfl⟩ | rfl
  · simp only [openingLine, List.mem_cons, List.mem_append, List.not_mem_nil, or_false] at hc
    rcases hc with hc | hc | hc | hc
    · exact absurd hc (by decide)
    · exact absurd (h.className _ hc) (by decide)
    · exact absurd hc (by decide)
    · exact absurd hc (by decide)
  · obtain ⟨hproperty, hvalue⟩ := h.declarations pair hpair
    simp only [declarationLine, List.mem_cons, List.mem_append, List.not_mem_nil, or_false] at hc
    rcases hc with hc | hc | hc | hc | hc | hc | hc
    · exact absurd hc (by decide)
    · exact absurd hc (by decide)
    · exact hplain _ hproperty hc
    · exact absurd hc (by decide)
    · exact absurd hc (by decide)
    · exact hplain _ hvalue hc
    · exact absurd hc (by decide)
  · exact absurd hc (by decide)

/-! ### The rules come back -/

/-- A run of other characters is told from what follows the first stop. -/
theorem span_stop {stop : Char} {run : List Char} (h : stop ∉ run) (rest : List Char) :
    (run ++ stop :: rest).takeWhile (· != stop) = run ∧
      (run ++ stop :: rest).dropWhile (· != stop) = stop :: rest := by
  have hrun : ∀ c ∈ run, (c != stop) = true := by
    intro c hc
    rw [bne_iff_ne]
    rintro rfl
    exact h hc
  constructor
  · rw [List.takeWhile_append_of_pos hrun, List.takeWhile_cons, if_neg (by simp),
      List.append_nil]
  · rw [List.dropWhile_append_of_pos hrun, List.dropWhile_cons, if_neg (by simp)]

theorem readLine_openingLine {className : String} (h : ' ' ∉ className.toList) :
    readLine (openingLine className) = some (.opening className.toList) := by
  obtain ⟨htake, hdrop⟩ := span_stop h ['\x7b']
  rw [openingLine, readLine, hdrop, htake, if_pos rfl]

theorem readLine_declarationLine {pair : String × String} (hproperty : IsPlain pair.1)
    (hvalue : IsPlain pair.2) :
    readLine (declarationLine pair) = some (.declaration pair.1.toList pair.2.toList) := by
  have hcolon : ':' ∉ pair.1.toList := fun hc => ne_of_plain hproperty hc (by decide) rfl
  have hsemicolon : ';' ∉ pair.2.toList := fun hc => ne_of_plain hvalue hc (by decide) rfl
  obtain ⟨htake, hdrop⟩ := span_stop hcolon (' ' :: (pair.2.toList ++ [';']))
  obtain ⟨htake', hdrop'⟩ := span_stop hsemicolon []
  rw [declarationLine, readLine, hdrop, htake]
  simp only [hdrop', htake', if_pos]

theorem take_declarationLines (done : List Entry) (name : String)
    {pairs : List (String × String)} (h : PlainPairs pairs) (soFar : List (String × String)) :
    (pairs.map declarationLine).foldlM Progress.take ⟨done, some (name, soFar)⟩ =
      some ⟨done, some (name, soFar ++ pairs)⟩ := by
  induction pairs generalizing soFar with
  | nil => simp
  | cons pair rest ih =>
    obtain ⟨hproperty, hvalue⟩ := h pair List.mem_cons_self
    have hstep : Progress.take ⟨done, some (name, soFar)⟩ (declarationLine pair) =
        some ⟨done, some (name, soFar ++ [pair])⟩ := by
      simp only [Progress.take, readLine_declarationLine hproperty hvalue, String.ofList_toList]
    rw [List.map_cons, List.foldlM_cons, hstep]
    refine (ih (fun q hq => h q (List.mem_cons_of_mem pair hq)) (soFar ++ [pair])).trans ?_
    rw [List.append_assoc, List.singleton_append]

/-- **The lines of a rule add that rule.** -/
theorem take_ruleLines {rule : Rule} (h : IsReadableRule rule) (done : List Entry) :
    (ruleLines rule).foldlM Progress.take ⟨done, none⟩ =
      some ⟨done ++ [(rule.className.text, rule.declarations)], none⟩ := by
  have hspace : ' ' ∉ rule.className.text.toList := fun hc =>
    absurd (h.className _ hc) (by decide)
  have hopen : Progress.take ⟨done, none⟩ (openingLine rule.className.text) =
      some ⟨done, some (rule.className.text, [])⟩ := by
    simp only [Progress.take, readLine_openingLine hspace, String.ofList_toList]
  simp only [ruleLines, List.foldlM_append, List.foldlM_cons, List.foldlM_nil,
    Option.bind_eq_bind, Option.bind_some, hopen,
    take_declarationLines done _ h.declarations, List.nil_append]
  rfl

theorem take_lines {rules : List Rule} (h : ∀ rule ∈ rules, IsReadableRule rule)
    (done : List Entry) :
    (rules.flatMap ruleLines).foldlM Progress.take ⟨done, none⟩ =
      some ⟨done ++ rules.map fun rule => (rule.className.text, rule.declarations), none⟩ := by
  induction rules generalizing done with
  | nil => simp
  | cons rule rest ih =>
    rw [List.flatMap_cons, List.foldlM_append, take_ruleLines (h rule List.mem_cons_self)]
    refine (ih (fun r hr => h r (List.mem_cons_of_mem rule hr)) _).trans ?_
    rw [List.map_cons, List.append_assoc, List.singleton_append]

/-- **A stylesheet reads back to its rules.** -/
theorem read?_text {s : Stylesheet} (h : ∀ rule ∈ s.rules, IsReadableRule rule) :
    read? s.text = some s.entries := by
  have hlines : ∀ line ∈ s.rules.flatMap ruleLines, '\n' ∉ line := by
    intro line hline
    obtain ⟨rule, hrule, hmem⟩ := List.mem_flatMap.mp hline
    exact newline_notMem_ruleLines (h rule hrule) line hmem
  rw [read?, toList_text, splitOn_stopped hlines, List.foldlM_append, Progress.start,
    take_lines h []]
  rfl

end DesignMarkup.Stylesheet
