/-
  DesignMarkup/Command/LogFilter.lean
  ===================================
  **Which notices are shown.**  A filter is a list of rules, each a level for the
  parts of the program whose name starts in a given way.  The rule with the longest
  start that fits a notice decides.  A specification lists rules between commas: a
  level for everything, a name, or a name and its level; after a slash stands a
  pattern that has to occur in a message.
-/
import DesignMarkup.Notice
import DesignMarkup.Pattern.OfTree

namespace DesignMarkup.Command

/-- The level up to which notices are shown: a rank, zero showing none. -/
abbrev Threshold := Nat

/-- A rule for the parts whose name starts with `start`. -/
structure FilterRule where
  start : Option String
  threshold : Threshold
deriving DecidableEq, Repr

/-- Whether a part of the program has a name that starts as a rule says. -/
def FilterRule.fits (rule : FilterRule) (target : String) : Bool :=
  rule.start.all fun start => start.toList.isPrefixOf target.toList

/-- The length of the start of a rule. -/
def FilterRule.weight (rule : FilterRule) : Nat := (rule.start.map String.utf8ByteSize).getD 0

/-- Rules, and a pattern that has to occur in messages. -/
structure LogFilter where
  rules : List FilterRule
  pattern : Option Pattern.Expr := none
deriving DecidableEq, Repr

def threshold? (name : String) : Option Threshold :=
  match String.ofList (name.toList.map Char.toLower) with
  | "off" => some 0
  | "error" => some 1
  | "warn" => some 2
  | "info" => some 3
  | "debug" => some 4
  | "trace" => some 5
  | _ => none

def everything : Threshold := 5

def splitBy (separator : Char) : List Char → List (List Char)
  | [] => [[]]
  | c :: rest =>
    if c = separator then [] :: splitBy separator rest
    else
      match splitBy separator rest with
      | [] => [[c]]
      | first :: more => (c :: first) :: more

/-- The rule that a piece of a specification states, or what is wrong with it. -/
def readRule (piece : String) : Except String FilterRule :=
  match (splitBy '=' piece.toList).map String.ofList with
  | [only] =>
    match threshold? only with
    | some threshold => .ok ⟨none, threshold⟩
    | none => .ok ⟨some only, everything⟩
  | [start, level] =>
    let level := Text.trim level
    if level = "" then .ok ⟨some start, everything⟩
    else
      match threshold? level with
      | some threshold => .ok ⟨some start, threshold⟩
      | none => .error ("invalid logging spec '" ++ level ++ "'")
  | _ => .error ("invalid logging spec '" ++ piece ++ "'")

namespace LogFilter

/-- Add a rule, in the place of one for the same start. -/
def addRule (rule : FilterRule) : List FilterRule → List FilterRule
  | [] => [rule]
  | r :: rest => if r.start = rule.start then rule :: rest else r :: addRule rule rest

def upTo (threshold : Threshold) : LogFilter := ⟨[⟨none, threshold⟩], none⟩

/-- The pattern of a specification, and what is wrong with it. -/
def readPattern (pattern : Option String) : Option Pattern.Expr × List String :=
  match pattern with
  | none => (none, [])
  | some pattern =>
    match Pattern.Expr.read pattern with
    | .ok e => (some e, [])
    | .error why => (none, ["invalid regex filter - " ++ why.message])

/-- Read a specification, and what is wrong with parts of it.  Without a rule, only
    errors are shown. -/
def read (spec : String) : LogFilter × List String :=
  let fallback (rules : List FilterRule) : List FilterRule :=
    if rules.isEmpty then [⟨none, 1⟩] else rules
  match splitBy '/' spec.toList with
  | _ :: _ :: _ :: _ =>
    (⟨fallback [], none⟩, ["invalid logging spec '" ++ spec ++ "' (too many '/'s)"])
  | pieces =>
    let parts := (splitBy ',' (pieces.head?.getD [])).map fun piece => Text.trim (String.ofList piece)
    let results := (parts.filter fun piece => piece ≠ "").map readRule
    let rules := results.foldl
      (fun rules result =>
        match result with
        | .ok rule => addRule rule rules
        | .error _ => rules) []
    let mistakes := results.filterMap fun result =>
      match result with
      | .ok _ => none
      | .error mistake => some mistake
    let (pattern, more) := readPattern ((pieces[1]?).map String.ofList)
    (⟨fallback rules, pattern⟩, mistakes ++ more)

/-- The rule that decides for a part of the program: of those that fit, the last one
    of the greatest weight. -/
def deciding? (rules : List FilterRule) (target : String) : Option FilterRule :=
  rules.foldl
    (fun best rule =>
      if rule.fits target
          && best.all fun b => b.weight ≤ rule.weight then
        some rule
      else best)
    none

/-- Whether a notice is shown. -/
def shows (filter : LogFilter) (n : Notice) : Bool :=
  (deciding? filter.rules n.target).any (fun rule => n.level.rank ≤ rule.threshold)
    && filter.pattern.all fun pattern => pattern.occursIn n.message

end LogFilter

end DesignMarkup.Command
