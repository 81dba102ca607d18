/-
  DesignMarkup/Proofs/Design/Agreement.lean
  =========================================
  **The two readers of nodes agree.**  A node that stands on its own, as the document of a
  response or in an entry of its nodes, is read straight from the text; a child is converted
  from the value that was read for the list of children.  Both set the same fields from the
  same values, but the one meets the members of an object as they are written, the other in
  the order of their keys.

  The order makes no difference where no field is named twice (`value_ofMembers_perm`), and
  where one is, neither reader gives a node.  So what is read from a text is what comes of its
  value (`meaning_eq_node?`).
-/
import DesignMarkup.Proofs.Design.Children
import DesignMarkup.Proofs.Design.Envelope

namespace DesignMarkup

open Json (Value)

theorem toOption_eq_some {ε α : Type} {x : Except ε α} {a : α} :
    x.toOption = some a ↔ x = .ok a := by
  cases x <;> simp [Except.toOption]

theorem Json.Value.hasDistinctKeys_sorted (w : Value) : w.sorted.HasDistinctKeys := by
  cases w with
  | object members => exact (Json.isAscending_sortMembers _).nodup_keys
  | null | boolean _ | number _ | string _ | array _ => trivial

namespace Node

/-! ### The same steps -/

theorem ofMembers?_eq (fuel depth : Nat) (members : List (String × Value)) (seen : List Field)
    (n : Node) :
    (schema fuel depth).ofMembers? fieldMeaning seen n members =
      (ofMembers (Json.sortedMembers members) seen n).value.toOption := by
  induction members generalizing seen n with
  | nil => rfl
  | cons m rest ih =>
    obtain ⟨key, v⟩ := m
    have hfield : (schema fuel depth).fieldOf? key = Field.ofKey? key := rfl
    rw [Json.Schema.ofMembers?, Json.sortedMembers, ofMembers, hfield]
    cases Field.ofKey? key with
    | none => exact ih seen n
    | some f =>
      simp only
      split_ifs with hseen
      · rfl
      · exact ih (f :: seen) (n.assign f v.sorted).value

theorem ofItems?_eq (fuel depth length : Nat) (fields : List Field) (items : List Value)
    (n : Node) :
    (schema fuel depth).ofItems? fieldMeaning fields n items =
      (ofItems length fields (Json.sortedItems items) n).value.toOption := by
  induction items generalizing fields n with
  | nil =>
    have hrequired : fields.find? (schema fuel depth).required = none :=
      List.find?_eq_none.mpr fun _ _ => Bool.false_ne_true
    rw [Json.Schema.ofItems?, hrequired, Json.sortedItems, ofItems]
    rfl
  | cons v rest ih =>
    cases fields with
    | nil => rfl
    | cons f fields => exact ih fields (n.assign f v.sorted).value

/-! ### Another order of the members -/

theorem eq_of_get {m n : Node} (h : ∀ f, m.get f = n.get f) : m = n := by
  obtain ⟨p, children⟩ := m
  obtain ⟨q, children'⟩ := n
  obtain rfl : p = q := props_eq_of_get fun f _ => h f
  obtain rfl : children = children' := h .children
  rfl

theorem toOption_ofMembers_of_not_nodup {members : List (String × Value)}
    (h : ¬(named members).Nodup) (seen : List Field) (n : Node) :
    (ofMembers members seen n).value.toOption = none := by
  cases hok : (ofMembers members seen n).value with
  | ok n' => exact absurd (nodup_of_ofMembers hok).1 h
  | error why => rfl

/-- **The order of the members of an object makes no difference to the node.** -/
theorem toOption_ofMembers_perm {members members' : List (String × Value)}
    (hp : members.Perm members') :
    (ofMembers members [] blank).value.toOption =
      (ofMembers members' [] blank).value.toOption := by
  have hnamed : (named members).Perm (named members') := hp.filterMap _
  by_cases hnodup : (named members).Nodup
  · obtain ⟨n, hn, hget⟩ := ofMembers_eq_ok hnodup (fun _ _ => List.not_mem_nil) blank
    obtain ⟨n', hn', hget'⟩ :=
      ofMembers_eq_ok (hnamed.nodup_iff.mp hnodup) (fun _ _ => List.not_mem_nil) blank
    have heq : n = n' := by
      apply eq_of_get
      intro f
      rw [hget, hget', valueAt_perm hp hnodup]
    rw [hn, hn', heq]
  · rw [toOption_ofMembers_of_not_nodup hnodup,
      toOption_ofMembers_of_not_nodup fun h => hnodup (hnamed.nodup_iff.mpr h)]

/-- **What is read straight from a text is what comes of its value,** if the outermost object
    repeats no key. -/
theorem meaning_eq_node? (fuel depth : Nat) {w : Value} (hk : w.HasDistinctKeys) :
    meaning fuel depth w = node? w.sorted := by
  cases w with
  | object members =>
    have hkeys : (Json.sortedMembers members).map Prod.fst = members.map Prod.fst := by
      rw [Json.sortedMembers_eq_map, List.map_map]
      rfl
    have hperm := Json.perm_sortMembers (hkeys.symm ▸ (show (members.map Prod.fst).Nodup from hk))
    exact (ofMembers?_eq fuel depth members [] blank).trans (toOption_ofMembers_perm hperm).symm
  | array items => exact ofItems?_eq fuel depth _ Field.all items blank
  | null | boolean _ | number _ | string _ => rfl

theorem toOption_parse {text : String} {w : Value} (h : Json.written? text = some w)
    (hk : w.HasDistinctKeys) : (parse text).1.toOption = node? w.sorted := by
  rw [← meaning_eq_node? (text.toList.length + 1) 126 hk]
  exact Json.Reader.toOption_run (means_reader _ 126) h

end Node

namespace Response

/-! ### Entries -/

/-- The node that an entry of the map of nodes carries, converted from its value. -/
def entryNode? : Value → Option Node
  | .object members => (members.lookup "document").bind fun node => Node.node? node.sorted
  | .array [node] => Node.node? node.sorted
  | _ => none

theorem entryNode?_of_entryMeaning {fuel depth : Nat} {e : Value}
    (hn : ∀ node, Carries e node → node.HasDistinctKeys) {n : Node}
    (h : entryMeaning fuel depth e = some n) : entryNode? e = some n := by
  have haccepts := (isSome_entryMeaning fuel depth e).mp (Option.isSome_of_eq_some h)
  obtain ⟨node, hcarries, -⟩ := carries_of_accepts haccepts
  have honly : ∀ f : EntryField, f = .document := fun | .document => rfl
  -- whatever stands for the node of the entry is read as this node
  have hread : ∀ v, (entrySchema (depth + 1) fuel).Holds .document v e →
      Node.meaning fuel depth v = some n := fun v hv =>
    Json.Schema.get_ofValue? id (R := fun v n => Node.meaning fuel depth v = some n)
      (fun f hf => absurd (honly f) hf) (fun _ _ _ h => h) (List.nodup_singleton _) h hv
  cases e with
  | object members =>
    cases hlookup : members.lookup "document" with
    | none =>
      have hne := List.lookup_eq_none_iff.mp hlookup ("document", node) hcarries
      simp at hne
    | some v =>
      have hmem : ("document", v) ∈ members := Json.mem_of_lookup hlookup
      rw [entryNode?, hlookup, Option.bind_some, ← Node.meaning_eq_node? fuel depth (hn v hmem)]
      exact hread v ⟨"document", hmem, rfl⟩
  | array items =>
    obtain rfl : items = [node] := hcarries
    rw [entryNode?, ← Node.meaning_eq_node? fuel depth (hn node rfl)]
    exact hread node List.mem_cons_self
  | null | boolean _ | number _ | string _ => exact False.elim hcarries

/-! ### Responses -/

def ResponseField.key : ResponseField → String
  | .name => "name"
  | .document => "document"
  | .nodes => "nodes"

/-- The value stands for a field of a response, under its name or in its place. -/
def Has (w : Value) (f : ResponseField) (v : Value) : Prop :=
  match w with
  | .object members => (f.key, v) ∈ members
  | .array items => (f, v) ∈ [ResponseField.name, .document, .nodes].zip items
  | _ => False

theorem Has.holds {w v : Value} {f : ResponseField} (h : Has w f v) (depth fuel : Nat) :
    (schema depth fuel).Holds f v w := by
  cases w with
  | object members =>
    refine ⟨f.key, h, schema_fieldOf?.mpr ?_⟩
    cases f <;> rfl
  | array items => exact h
  | null | boolean _ | number _ | string _ => exact False.elim h

theorem nodup_fields (depth fuel : Nat) : (schema depth fuel).fields.Nodup := by
  change [ResponseField.name, .document, .nodes].Nodup
  decide

section Fields

variable {text : String} {w : Value} (hw : Json.written? text = some w) {r : Response}
  (h : (parse text).1 = .ok r)
include hw h

theorem meaning_of_parse : meaning (text.toList.length + 1) w = some r := by
  rw [← toOption_parse hw, h]
  rfl

/-- **The document of a response is the node that its value converts to.** -/
theorem document_of_parse {d : Value} (hd : Has w .document d) (hk : d.HasDistinctKeys) :
    r.document = Node.node? d.sorted := by
  have hread : Json.Reader.orNull (Node.meaning (text.toList.length + 1) 125) d =
      some r.document := by
    refine Json.Schema.get_ofValue? Response.document
      (R := fun d document => Json.Reader.orNull (Node.meaning _ 125) d = some document)
      ?_ ?_ (nodup_fields 126 _) (meaning_of_parse hw h) (hd.holds 126 _)
    · intro f hf r v r' hr
      cases f with
      | document => exact absurd rfl hf
      | name | nodes =>
        obtain ⟨_, -, rfl⟩ := Option.map_eq_some_iff.mp hr
        rfl
    · intro r v r' hr
      obtain ⟨document, hdocument, rfl⟩ := Option.map_eq_some_iff.mp hr
      exact hdocument
  by_cases hnull : d = .null
  · subst hnull
    exact (Option.some.inj hread).symm
  · rw [Json.Reader.orNull_of_ne hnull, Node.meaning_eq_node? _ _ hk] at hread
    obtain ⟨n, hn, hsome⟩ := Option.map_eq_some_iff.mp hread
    rw [hn, hsome]

/-- **The nodes of a response are those that the values of its entries convert to.** -/
theorem nodes_of_parse {entries : List (String × Value)} (hentries : Has w .nodes (.object entries))
    (hk : ∀ entry ∈ entries, ∀ node, Carries entry.2 node → node.HasDistinctKeys) :
    r.nodes = some (Json.sortMembers (entries.map fun entry => (entry.1, entryNode? entry.2))) := by
  have hread : Json.Reader.orNull (Json.Reader.mapOf? (Json.Reader.orNull
      (entryMeaning (text.toList.length + 1) 123))) (.object entries) = some r.nodes := by
    refine Json.Schema.get_ofValue? Response.nodes
      (R := fun v nodes => Json.Reader.orNull (Json.Reader.mapOf? (Json.Reader.orNull
        (entryMeaning _ 123))) v = some nodes)
      ?_ ?_ (nodup_fields 126 _) (meaning_of_parse hw h) (hentries.holds 126 _)
    · intro f hf r v r' hr
      cases f with
      | nodes => exact absurd rfl hf
      | name | document =>
        obtain ⟨_, -, rfl⟩ := Option.map_eq_some_iff.mp hr
        rfl
    · intro r v r' hr
      obtain ⟨nodes, hnodes, rfl⟩ := Option.map_eq_some_iff.mp hr
      exact hnodes
  obtain ⟨nodes, hnodes, hsome⟩ := Option.map_eq_some_iff.mp hread
  rw [← hsome, Json.Reader.entriesOf?_eq_some (g := entryNode?) ?_ hnodes]
  · rfl
  · intro entry hentry a ha
    by_cases hnull : entry.2 = .null
    · rw [hnull] at ha ⊢
      exact (Option.some.inj ha).symm
    · rw [Json.Reader.orNull_of_ne hnull] at ha
      obtain ⟨n, hn, rfl⟩ := Option.map_eq_some_iff.mp ha
      exact (entryNode?_of_entryMeaning (hk entry hentry) hn).symm

end Fields

end Response

/-- **The two readers agree.**  If a text is a value, reading a node from the text and
    converting the value give the same node or none, as long as no key of the outermost object
    is written twice.  So the document of a response, the nodes in its entries and the children
    of a node are all what their values convert to. -/
theorem readers_agree {text : String} {v : Value} (h : Json.parseValue text = .ok v) :
    ∃ w, Json.written? text = some w ∧ w.sorted = v ∧
      (w.HasDistinctKeys →
        ∀ n, (Node.parse text).1 = .ok n ↔ (Node.ofValue v).value = .ok n) ∧
      (∀ r, (Response.parse text).1 = .ok r →
        (∀ d, Response.Has w .document d → d.HasDistinctKeys →
          r.document = Node.node? d.sorted) ∧
        (∀ entries, Response.Has w .nodes (.object entries) →
          (∀ entry ∈ entries, ∀ node, Response.Carries entry.2 node → node.HasDistinctKeys) →
          r.nodes = some (Json.sortMembers
            (entries.map fun entry => (entry.1, Response.entryNode? entry.2))))) ∧
      ∀ n, (Node.ofValue v).value = .ok n →
        n.children = (Node.childItems v).filterMap Node.node? := by
  obtain ⟨w, hw, rfl⟩ := Json.parseValue_eq_ok_iff.mp h
  refine ⟨w, hw, rfl, fun hk n => ?_, fun r hr => ⟨?_, ?_⟩, fun n hn => ?_⟩
  · have hsame : (Node.parse text).1.toOption = Node.node? w.sorted := Node.toOption_parse hw hk
    rw [← toOption_eq_some, hsame, Node.node?, toOption_eq_some]
  · intro d hd hk
    exact Response.document_of_parse hw hr hd hk
  · intro entries hentries hk
    exact Response.nodes_of_parse hw hr hentries hk
  · exact Node.children_of_ofValue (Json.Value.hasDistinctKeys_sorted w) hn

/-- The members of a node need not be written in the order of their keys. -/
theorem readers_agree_unordered :
    Json.parseValue "\x7b\"id\":\"1:2\",\"document\":\x7b\"id\":\"1:3\"\x7d\x7d" =
      .ok (.object [("document", .object [("id", .string "1:3")]), ("id", .string "1:2")]) ∧
    (Node.parse "\x7b\"id\":\"1:2\",\"document\":\x7b\"id\":\"1:3\"\x7d\x7d").1 =
      .ok ⟨{ id := "1:2" }, []⟩ ∧
    ∃ r, (Response.parse "\x7b\"id\":\"1:2\",\"document\":\x7b\"id\":\"1:3\"\x7d\x7d").1 = .ok r ∧
      r.document = some ⟨{ id := "1:3" }, []⟩ := by
  have hparse : Json.parseValue "\x7b\"id\":\"1:2\",\"document\":\x7b\"id\":\"1:3\"\x7d\x7d" =
      .ok (.object [("document", .object [("id", .string "1:3")]), ("id", .string "1:2")]) := rfl
  have hwritten : Json.written? "\x7b\"id\":\"1:2\",\"document\":\x7b\"id\":\"1:3\"\x7d\x7d" =
      some (.object [("id", .string "1:2"), ("document", .object [("id", .string "1:3")])]) := rfl
  obtain ⟨w, hw, -, hnode, hresponse, -⟩ := readers_agree hparse
  obtain rfl := Option.some.inj (hwritten.symm.trans hw)
  have hread : ∃ r, (Response.parse
      "\x7b\"id\":\"1:2\",\"document\":\x7b\"id\":\"1:3\"\x7d\x7d").1.toOption = some r := by
    rw [Response.toOption_parse hwritten]
    exact ⟨⟨none, some ⟨{ id := "1:3" }, []⟩, none⟩, rfl⟩
  obtain ⟨r, hr⟩ := hread
  refine ⟨hparse, (hnode (by decide) _).mpr rfl, r, toOption_eq_some.mp hr, ?_⟩
  have hdocument : Response.Has (.object [("id", .string "1:2"),
      ("document", .object [("id", .string "1:3")])]) .document
        (.object [("id", .string "1:3")]) := List.mem_cons_of_mem _ List.mem_cons_self
  exact (hresponse r (toOption_eq_some.mp hr)).1 _ hdocument (by decide)

end DesignMarkup
