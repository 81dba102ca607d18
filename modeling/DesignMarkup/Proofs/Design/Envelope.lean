/-
  DesignMarkup/Proofs/Design/Envelope.lean
  ========================================
  **Which responses are read.**  The envelope of a response is strict, the nodes in it are
  lenient.  `IsResponse` is what the envelope asks for: a name that is a string, a document
  that is a node, and nodes each of which is null or carries a node, as an object under
  `document` or as the only item of an array.  `parse_ok_iff` says that this is all that it
  asks for.

  What a value makes of a response is `meaning`, field by field down to the nodes, and a
  text is read as what is written in it means (`toOption_parse`).  Of a node the envelope
  asks only that it is readable, so nothing that stands under the keys of a node, at any
  depth, has a say in whether the response is read.

  The members are those that are written in the text: a map of nodes may repeat an id, and
  then each of its values counts.
-/
import DesignMarkup.Design.OfText
import DesignMarkup.Proofs.Design.Readable
import DesignMarkup.Proofs.Json.Records
import Mathlib.Data.List.Nodup

namespace DesignMarkup

open Json (Value Reader)

/-! ### Nodes -/

namespace Node

/-- What the value of a field makes of a node: something, whatever it is. -/
def fieldMeaning (f : Field) (n : Node) (v : Value) : Option Node :=
  some (n.assign f v.sorted).value

/-- The node that a value makes where nodes are read straight from the text. -/
def meaning (fuel depth : Nat) : Value → Option Node :=
  (schema fuel depth).ofValue? fieldMeaning blank

theorem means_field (fuel depth : Nat) (f : Field) (n : Node) :
    Reader.Means fuel depth ((schema fuel depth).read f n) (fieldMeaning f n) :=
  (Reader.means_scanValue fuel depth).bind (g := fun v => (n.assign f v).value) fun _ text =>
    (Reader.reads_remark _ text).bind (Reader.reads_pure _ text)

theorem means_reader (fuel depth : Nat) :
    Reader.Means fuel (depth + 1) (reader (depth + 1) fuel) (meaning fuel depth) :=
  Reader.means_record (means_field fuel depth) blank

theorem accepts_iff {fuel depth : Nat} {w : Value} (hk : w.HasDistinctKeys) :
    (schema fuel depth).Accepts (fun _ _ => True) w ↔ IsReadable w := by
  cases w with
  | object members =>
    refine Iff.trans ?_ (nodup_named_iff hk)
    constructor
    · exact fun h => h.nodup
    · exact fun h => ⟨h, fun _ _ => List.not_mem_nil, fun _ _ _ _ => trivial, nofun⟩
  | array items =>
    constructor
    · exact fun h => h.length
    · exact fun h => ⟨h, fun _ _ => trivial, fun _ _ => rfl⟩
  | null | boolean _ | number _ | string _ => exact Iff.rfl

theorem isSome_meaning (fuel depth : Nat) (w : Value) :
    (meaning fuel depth w).isSome = true ↔ (schema fuel depth).Accepts (fun _ _ => True) w :=
  Json.Schema.isSome_ofValue? (fun _ _ _ => iff_of_true rfl trivial) blank w

end Node

namespace Response

/-! ### Entries -/

/-- The node that an entry of the map of nodes carries. -/
def Carries : Value → Value → Prop
  | .object members, node => ("document", node) ∈ members
  | .array items, node => items = [node]
  | _, _ => False

def IsEntry (w : Value) : Prop := w = .null ∨ ∃ node, Carries w node ∧ Node.IsReadable node

theorem eq_of_nodup_keys {members : List (String × Value)} (hk : (members.map Prod.fst).Nodup)
    {key : String} {v v' : Value} (h : (key, v) ∈ members) (h' : (key, v') ∈ members) : v = v' :=
  congrArg Prod.snd (List.inj_on_of_nodup_map hk h h' rfl)

/-- Members with different keys name different fields, if each field has one name. -/
theorem nodup_named {ν φ σ : Type} {schema : Json.Schema ν φ σ}
    (hname : ∀ key f, schema.fieldOf? key = some f → key = schema.fieldName f)
    {members : List (String × Value)} (hk : (members.map Prod.fst).Nodup) :
    (schema.named members).Nodup := by
  rw [Json.Schema.named, List.Nodup, List.pairwise_filterMap]
  refine (List.pairwise_map.mp hk).imp fun {a b} hne f hf g hg heq => hne ?_
  rw [hname a.1 f hf, hname b.1 g hg, heq]

theorem entrySchema_fieldOf? {depth fuel : Nat} {key : String} {f : EntryField} :
    (entrySchema depth fuel).fieldOf? key = some f ↔ key = "document" := by
  change (if key = "document" then some EntryField.document else none) = some f ↔ _
  split_ifs with h
  · exact iff_of_true rfl h
  · exact iff_of_false nofun h

/-- The node that an entry carries where entries are read straight from the text. -/
def entryMeaning (fuel depth : Nat) : Value → Option Node :=
  (entrySchema (depth + 1) fuel).ofValue? (fun _ _ => Node.meaning fuel depth) Node.blank

theorem means_entryReader (fuel depth : Nat) :
    Reader.Means fuel (depth + 2) (entryReader (depth + 2) fuel) (entryMeaning fuel depth) :=
  Reader.means_record (fun _ _ => Node.means_reader fuel depth) Node.blank

theorem isSome_entryMeaning (fuel depth : Nat) (w : Value) :
    (entryMeaning fuel depth w).isSome = true ↔ (entrySchema (depth + 1) fuel).Accepts
      (fun _ => (Node.schema fuel depth).Accepts fun _ _ => True) w :=
  Json.Schema.isSome_ofValue? (fun _ _ v => Node.isSome_meaning fuel depth v) Node.blank w

/-- An entry that is taken carries something that is taken as its node. -/
theorem carries_of_accepts {fuel depth : Nat} {P : EntryField → Value → Prop} {w : Value}
    (h : (entrySchema depth fuel).Accepts P w) : ∃ node, Carries w node ∧ P .document node := by
  cases w with
  | object members =>
    -- the field is required, so some member has its name
    rcases h.complete .document List.mem_cons_self rfl with hseen | hnamed
    · cases hseen
    · obtain ⟨m, hm, hfield⟩ := List.mem_filterMap.mp hnamed
      have hmem : ("document", m.2) ∈ members := by
        rw [← entrySchema_fieldOf?.mp hfield]
        exact hm
      exact ⟨m.2, hmem, h.values m hm .document hfield⟩
  | array items =>
    match items with
    | [] =>
      have hreq : true = false := h.complete .document List.mem_cons_self
      cases hreq
    | [node] => exact ⟨node, rfl, h.values (.document, node) List.mem_cons_self⟩
    | _ :: _ :: _ => exact absurd (Nat.le_of_succ_le_succ h.length) (Nat.not_succ_le_zero _)
  | null | boolean _ | number _ | string _ => exact False.elim h

theorem accepts_entry_iff {fuel depth depth' : Nat} {w : Value} (hk : w.HasDistinctKeys)
    (hn : ∀ node, Carries w node → node.HasDistinctKeys) :
    (entrySchema depth' fuel).Accepts (fun _ => (Node.schema fuel depth).Accepts fun _ _ => True) w
      ↔ ∃ node, Carries w node ∧ Node.IsReadable node := by
  constructor
  · intro h
    obtain ⟨node, hcarries, hnode⟩ := carries_of_accepts h
    exact ⟨node, hcarries, (Node.accepts_iff (hn node hcarries)).mp hnode⟩
  · rintro ⟨node, hcarries, hr⟩
    have hnode : (Node.schema fuel depth).Accepts (fun _ _ => True) node :=
      (Node.accepts_iff (hn node hcarries)).mpr hr
    cases w with
    | object members =>
      refine ⟨nodup_named (fun _ _ => entrySchema_fieldOf?.mp) hk, fun _ _ => List.not_mem_nil,
        fun m hm f hf => ?_, fun f _ _ => Or.inr ?_⟩
      · have hm' : ("document", m.2) ∈ members := by
          rw [← entrySchema_fieldOf?.mp hf]
          exact hm
        rw [← eq_of_nodup_keys hk hcarries hm']
        exact hnode
      · exact List.mem_filterMap.mpr ⟨_, hcarries, entrySchema_fieldOf?.mpr rfl⟩
    | array items =>
      obtain rfl : items = [node] := hcarries
      refine ⟨Nat.le_refl 1, fun p hp => ?_, nofun⟩
      obtain rfl := List.mem_singleton.mp hp
      exact hnode
    | null | boolean _ | number _ | string _ => exact False.elim hcarries

/-! ### The envelope -/

/-- No key is written twice in the response, in an entry of its nodes or in a node that is
    not a child of another. -/
structure RepeatsNoKey (members : List (String × Value)) : Prop where
  keys : (Value.object members).HasDistinctKeys
  document : ∀ w, ("document", w) ∈ members → w.HasDistinctKeys
  entries : ∀ entries, ("nodes", .object entries) ∈ members →
    ∀ entry ∈ entries, entry.2.HasDistinctKeys
  nodes : ∀ entries, ("nodes", .object entries) ∈ members →
    ∀ entry ∈ entries, ∀ node, Carries entry.2 node → node.HasDistinctKeys

/-- What the envelope of a response asks for. -/
structure IsResponse (members : List (String × Value)) : Prop where
  name : ∀ w, ("name", w) ∈ members → w = .null ∨ ∃ s, w = .string s
  document : ∀ w, ("document", w) ∈ members → w = .null ∨ Node.IsReadable w
  nodes : ∀ w, ("nodes", w) ∈ members → w = .null ∨
    ∃ entries, w = .object entries ∧ ∀ entry ∈ entries, IsEntry entry.2

/-- The values from which a field of a response is read. -/
def TakesField (fuel depth : Nat) : ResponseField → Value → Prop
  | .name, w => w = .null ∨ ∃ s, w = .string s
  | .document, w => w = .null ∨ (Node.schema fuel (depth + 2)).Accepts (fun _ _ => True) w
  | .nodes, w => w = .null ∨ ∃ entries, w = .object entries ∧ ∀ entry ∈ entries,
    entry.2 = .null ∨ (entrySchema (depth + 1) fuel).Accepts
      (fun _ => (Node.schema fuel depth).Accepts fun _ _ => True) entry.2

/-- What the value of a field makes of a response. -/
def fieldMeaning (fuel depth : Nat) : ResponseField → Response → Value → Option Response
  | .name, r, w => (Reader.orNull Reader.stringOf? w).map fun name => { r with name }
  | .document, r, w =>
    (Reader.orNull (Node.meaning fuel (depth + 2)) w).map fun document => { r with document }
  | .nodes, r, w =>
    (Reader.orNull (Reader.mapOf? (Reader.orNull (entryMeaning fuel depth))) w).map fun nodes =>
      { r with nodes }

theorem means_field (fuel depth : Nat) (field : ResponseField) (r : Response) :
    Reader.Means fuel (depth + 3) ((schema (depth + 3) fuel).read field r)
      (fieldMeaning fuel depth field r) := by
  cases field with
  | name =>
    exact (Reader.means_string fuel (depth + 3)).optional.bind fun _ _ => Reader.reads_pure _ _
  | document =>
    exact (Node.means_reader fuel (depth + 2)).optional.bind fun _ _ => Reader.reads_pure _ _
  | nodes =>
    exact (Reader.means_map (means_entryReader fuel depth).optional).optional.bind
      fun _ _ => Reader.reads_pure _ _

theorem isSome_fieldMeaning (fuel depth : Nat) (field : ResponseField) (r : Response) (w : Value) :
    (fieldMeaning fuel depth field r w).isSome = true ↔ TakesField fuel depth field w := by
  cases field with
  | name =>
    rw [fieldMeaning, Option.isSome_map, Reader.isSome_orNull, TakesField]
    cases w <;> simp [Reader.stringOf?]
  | document =>
    rw [fieldMeaning, Option.isSome_map, Reader.isSome_orNull, Node.isSome_meaning, TakesField]
  | nodes =>
    rw [fieldMeaning, Option.isSome_map, Reader.isSome_orNull, Reader.isSome_mapOf?, TakesField]
    simp only [Reader.isSome_orNull, isSome_entryMeaning]

/-- The response that a value makes; the response, its map of nodes, an entry and the node in
    it leave 123 of the containers that may be opened. -/
def meaning (fuel : Nat) : Value → Option Response :=
  (schema 126 fuel).ofValue? (fieldMeaning fuel 123) ⟨none, none, none⟩

theorem isSome_meaning (fuel : Nat) (w : Value) :
    (meaning fuel w).isSome = true ↔ (schema 126 fuel).Accepts (TakesField fuel 123) w :=
  Json.Schema.isSome_ofValue? (isSome_fieldMeaning fuel 123) ⟨none, none, none⟩ w

/-- **A response is read as the text means.** -/
theorem toOption_parse {text : String} {w : Value} (h : Json.written? text = some w) :
    (parse text).1.toOption = meaning (text.toList.length + 1) w :=
  Reader.toOption_run (Reader.means_record (means_field _ 123) ⟨none, none, none⟩) h

theorem schema_fieldOf? {depth fuel : Nat} {key : String} {f : ResponseField} :
    (schema depth fuel).fieldOf? key = some f ↔ key = (schema depth fuel).fieldName f := by
  constructor
  · intro h
    simp only [schema] at h
    split at h <;> cases h <;> rfl
  · rintro rfl
    cases f <;> rfl

theorem accepts_iff {fuel depth : Nat} {members : List (String × Value)}
    (hk : RepeatsNoKey members) :
    (schema (depth + 3) fuel).Accepts (TakesField fuel depth) (.object members) ↔
      IsResponse members := by
  constructor
  · intro h
    refine ⟨fun w hw => h.values _ hw .name rfl, fun w hw => ?_, fun w hw => ?_⟩
    · refine (h.values _ hw .document rfl).imp_right ?_
      exact (Node.accepts_iff (hk.document w hw)).mp
    · refine (h.values _ hw .nodes rfl).imp_right ?_
      rintro ⟨entries, rfl, hentries⟩
      refine ⟨entries, rfl, fun entry hentry => (hentries entry hentry).imp_right ?_⟩
      exact (accepts_entry_iff (hk.entries entries hw entry hentry)
        (hk.nodes entries hw entry hentry)).mp
  · intro h
    refine ⟨nodup_named (fun _ _ => schema_fieldOf?.mp) hk.keys, fun _ _ => List.not_mem_nil,
      fun m hm f hf => ?_, nofun⟩
    obtain ⟨key, w⟩ := m
    obtain rfl := schema_fieldOf?.mp hf
    cases f with
    | name => exact h.name w hm
    | document => exact (h.document w hm).imp_right (Node.accepts_iff (hk.document w hm)).mpr
    | nodes =>
      refine (h.nodes w hm).imp_right ?_
      rintro ⟨entries, rfl, hentries⟩
      refine ⟨entries, rfl, fun entry hentry => (hentries entry hentry).imp_right ?_⟩
      exact (accepts_entry_iff (hk.entries entries hm entry hentry)
        (hk.nodes entries hm entry hentry)).mpr

/-- **Which responses are rejected.**  A text that is an object is read as a response just
    if its name, its document and its nodes are what the envelope asks for. -/
theorem parse_ok_iff {text : String} {sorted : List (String × Value)}
    (h : Json.parseValue text = .ok (.object sorted)) :
    ∃ members, Json.written? text = some (.object members) ∧
      (Value.object members).sorted = .object sorted ∧
      (RepeatsNoKey members → ((∃ r, (parse text).1 = .ok r) ↔ IsResponse members)) := by
  obtain ⟨w, hw, hsorted⟩ := Json.parseValue_eq_ok_iff.mp h
  cases w with
  | object members =>
    refine ⟨members, hw, hsorted, fun hk => ?_⟩
    have hok : (∃ r, (parse text).1 = .ok r) ↔ (parse text).1.toOption.isSome = true := by
      cases (parse text).1 <;> simp [Except.toOption]
    rw [hok, toOption_parse hw]
    exact (isSome_meaning _ _).trans (accepts_iff hk)
  | null | boolean _ | number _ | string _ | array _ => cases hsorted

/-- A number for an id is no reason to reject a response. -/
theorem parse_ok_iff_number :
    Json.parseValue "\x7b\"document\":\x7b\"id\":7\x7d\x7d" =
      .ok (.object [("document", .object [("id", .number (.integer 7))])]) ∧
    ∃ members, Json.written? "\x7b\"document\":\x7b\"id\":7\x7d\x7d" = some (.object members) ∧
      RepeatsNoKey members ∧ IsResponse members ∧
      ∃ r, (parse "\x7b\"document\":\x7b\"id\":7\x7d\x7d").1 = .ok r := by
  have hparse : Json.parseValue "\x7b\"document\":\x7b\"id\":7\x7d\x7d" =
      .ok (.object [("document", .object [("id", .number (.integer 7))])]) := rfl
  have hwritten : Json.written? "\x7b\"document\":\x7b\"id\":7\x7d\x7d" =
      some (.object [("document", .object [("id", .number (.integer 7))])]) := rfl
  obtain ⟨members, hw, -, hiff⟩ := parse_ok_iff hparse
  obtain rfl := Value.object.inj (Option.some.inj (hwritten.symm.trans hw))
  have hk : RepeatsNoKey [("document", .object [("id", .number (.integer 7))])] := by
    refine ⟨by decide, ?_, ?_, ?_⟩
    · simp [Value.HasDistinctKeys]
    · simp
    · simp
  have hresponse : IsResponse [("document", .object [("id", .number (.integer 7))])] := by
    refine ⟨by simp, ?_, by simp⟩
    simp only [List.mem_singleton, Prod.mk.injEq, true_and]
    rintro w rfl
    exact Or.inr (by decide)
  exact ⟨hparse, _, hw, hk, hresponse, (hiff hk).mpr hresponse⟩

end Response

end DesignMarkup
