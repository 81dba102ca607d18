/-
  DesignMarkup/Design/OfText.lean
  ===============================
  **Reading responses and nodes from JSON text.**  The envelope of a response and the
  nodes in it that are not children of others are read straight from the text, and
  are strict about their shape.  The value of each field of such a node is read whole
  and then assigned as `Node.assign` does, so nothing under a field makes the reading
  fail except an offence against the grammar.
-/
import DesignMarkup.Design.OfValue
import DesignMarkup.Design.Response
import DesignMarkup.Json.Record

namespace DesignMarkup

open Json (Reader ParseError)

namespace Node

/-- A node as a record.  Inside the value of a field, `depth` containers may still be
    opened. -/
def schema (fuel depth : Nat) : Json.Schema Notice Field Node where
  name := "DesignNode"
  fields := Field.all
  fieldName := Field.key
  fieldOf? := Field.ofKey?
  required _ := false
  read f n := do
    let v ← Reader.scan (Json.scanValue fuel depth)
    let assigned := n.assign f v
    Reader.remark assigned.notices
    return assigned.value

/-- Read a node; it may contain `depth` containers one inside the other. -/
def reader (depth fuel : Nat) : Reader Notice Node :=
  Reader.record fuel (schema fuel (depth - 1)) blank

def parse (text : String) : Except ParseError Node × List Notice :=
  Reader.run (reader Json.maxDepth) text

end Node

namespace Response

inductive EntryField where
  | document
deriving DecidableEq, Repr

/-- An entry of the map of nodes: an object whose one field is the node. -/
def entrySchema (depth fuel : Nat) : Json.Schema Notice EntryField Node where
  name := "NodeEntry"
  fields := [.document]
  fieldName | .document => "document"
  fieldOf? key := if key = "document" then some .document else none
  required _ := true
  read _ _ := Node.reader depth fuel

def entryReader (depth fuel : Nat) : Reader Notice Node :=
  Reader.record fuel (entrySchema (depth - 1) fuel) Node.blank

inductive ResponseField where
  | name | document | nodes
deriving DecidableEq, Repr

/-- A response as a record; all of its fields may be absent or null. -/
def schema (depth fuel : Nat) : Json.Schema Notice ResponseField Response where
  name := "SourceResponse"
  fields := [.name, .document, .nodes]
  fieldName
    | .name => "name"
    | .document => "document"
    | .nodes => "nodes"
  fieldOf? key :=
    match key with
    | "name" => some .name
    | "document" => some .document
    | "nodes" => some .nodes
    | _ => none
  required _ := false
  read field r :=
    match field with
    | .name => do
      let name ← Reader.optional (Reader.string fuel)
      return { r with name }
    | .document => do
      let document ← Reader.optional (Node.reader depth fuel)
      return { r with document }
    | .nodes => do
      let nodes ← Reader.optional <|
        Reader.map fuel (Reader.optional (entryReader (depth - 1) fuel))
      return { r with nodes }

def parse (text : String) : Except ParseError Response × List Notice :=
  Reader.run
    (fun fuel => Reader.record fuel (schema (Json.maxDepth - 1) fuel) ⟨none, none, none⟩) text

end Response

end DesignMarkup
