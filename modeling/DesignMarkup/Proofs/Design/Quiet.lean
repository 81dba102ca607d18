/-
  DesignMarkup/Proofs/Design/Quiet.lean
  =====================================
  **What a reading without warnings says.**  A value that is left out is warned of.  So when
  nothing is warned of, nothing was left out: a value that is there and not null was decoded
  (`decodes_lenient`), a list has one item for each that is not null (`decodes_lenientList`),
  and a record has in each field what stands under its key or in its place
  (`Shape.keeps_of_decode`).

  `Decodes` keeps along that the decoding was quiet too, since a value can contain others
  that are read leniently.
-/
import DesignMarkup.Proofs.Design.Children

namespace DesignMarkup

open Json (Value)

/-! ### Warnings -/

/-- The warning for a value that is left out. -/
def Notice.SaysMalformed (notice : Notice) : Prop :=
  notice.level = .warn ∧ "ignoring malformed".toList <+: notice.message.toList

namespace Logged

variable {α β : Type}

/-- No notice reports that something was left out. -/
def Quiet (x : Logged α) : Prop := ∀ notice ∈ x.notices, ¬notice.SaysMalformed

theorem quiet_bind {x : Logged α} {f : α → Logged β} :
    (x >>= f).Quiet ↔ x.Quiet ∧ (f x.value).Quiet := by
  unfold Quiet
  rw [notices_bind]
  exact List.forall_mem_append

theorem not_quiet_malformed (type : String) (why : Json.Mismatch) :
    ¬(notice (.malformed type why)).Quiet := by
  intro h
  refine h _ List.mem_cons_self ⟨rfl, ?_⟩
  have hstart : "ignoring malformed".toList <+: "ignoring malformed ".toList := by decide
  change _ <+: ("ignoring malformed " ++ type ++ ": " ++ why.message).toList
  simp only [String.toList_append, List.append_assoc]
  exact hstart.trans (List.prefix_append _ _)

theorem not_quiet_malformedList (got : Value) : ¬(notice (.malformedList got)).Quiet := by
  intro h
  refine h _ List.mem_cons_self ⟨rfl, ?_⟩
  have hstart : "ignoring malformed".toList <+:
      "ignoring malformed list: expected array, got ".toList := by decide
  change _ <+: ("ignoring malformed list: expected array, got " ++ got.compact).toList
  rw [String.toList_append]
  exact hstart.trans (List.prefix_append _ _)

end Logged

/-! ### Values that are there -/

def Json.Value.isNull : Value → Bool
  | .null => true
  | _ => false

/-- A value that is there and not null. -/
def given (w? : Option Value) : Option Value := w?.filter fun w => !w.isNull

/-- The value under one of the keys of an object, or in a place of an array. -/
def Json.Value.at? (v : Value) (keys : List String) (place : Nat) : Option Value :=
  match v with
  | .object members => (members.find? fun m => keys.contains m.1).map Prod.snd
  | .array items => items[place]?
  | _ => none

/-- The items of a list that are not null. -/
def givenItems (items : List Value) : List Value := items.filter fun w => !w.isNull

theorem eq_of_given {w u : Value} (h : given (some w) = some u) : u = w :=
  (Option.some.inj (Option.filter_eq_some_iff.mp h).1).symm

theorem Json.Value.mem_parts_of_given {v w : Value} {keys : List String} {place : Nat}
    (h : given (v.at? keys place) = some w) : w ∈ v.parts := by
  have hat := (Option.filter_eq_some_iff.mp h).1
  cases v with
  | object members =>
    obtain ⟨m, hm, rfl⟩ := Option.map_eq_some_iff.mp hat
    exact List.mem_map_of_mem (List.mem_of_find?_eq_some hm)
  | array items => exact List.mem_of_getElem? hat
  | null | boolean _ | number _ | string _ => cases hat

theorem given_some {w : Value} (h : w ≠ .null) : given (some w) = some w := by
  cases w <;> first | rfl | exact absurd rfl h

theorem givenItems_cons (w : Value) (rest : List Value) :
    givenItems (w :: rest) = (given (some w)).toList ++ givenItems rest := by
  cases w <;> rfl

/-- What is there stands in the relation, and what is not has the default. -/
def OrElse {α : Type} (R : Value → α → Prop) (default : α) : Option Value → α → Prop
  | some w, a => R w a
  | none, a => a = default

/-- The value is a list, and its items other than null correspond in order. -/
def ItemsAre {α : Type} (R : Value → α → Prop) (w : Value) (list : List α) : Prop :=
  ∃ items, w = .array items ∧ List.Forall₂ R (givenItems items) list

theorem orElse_of_rel {α : Type} {R : Value → α → Prop} {w? : Option Value} {a? : Option α}
    (h : Option.Rel R w? a?) (default : α) : OrElse R default w? (a?.getD default) := by
  cases h with
  | some h => exact h
  | none => rfl

/-- Where something is there, the default does not matter. -/
theorem OrElse.rel {α : Type} {R : Value → α → Prop} {default : α} {w? : Option Value} {a : α}
    (h : OrElse R default w? a) (hthere : w?.isSome = true) : Option.Rel R w? (some a) := by
  cases w? with
  | none => cases hthere
  | some w => exact .some h

theorem OrElse.mono {α : Type} {R S : Value → α → Prop} {default : α} {w? : Option Value} {a : α}
    (h : OrElse R default w? a) (hmono : ∀ w b, w? = some w → R w b → S w b) :
    OrElse S default w? a := by
  cases w? with
  | none => exact h
  | some w => exact hmono w a rfl h

theorem rel_mono {α : Type} {R S : Value → α → Prop} {w? : Option Value} {a? : Option α}
    (h : Option.Rel R w? a?) (hmono : ∀ w a, w? = some w → R w a → S w a) :
    Option.Rel S w? a? := by
  cases h with
  | some h => exact .some (hmono _ _ rfl h)
  | none => exact .none

/-- Among the items in their places, those under a key are found by the place of the key. -/
theorem lookup_zip {κ : Type} [DecidableEq κ] {keys : List κ} (hkeys : keys.Nodup) {place : Nat}
    {key : κ} (hplace : keys[place]? = some key) (items : List Value) :
    (keys.zip items).lookup key = items[place]? := by
  induction keys generalizing place items with
  | nil => cases hplace
  | cons first rest ih =>
    obtain ⟨hfirst, hrest⟩ := List.nodup_cons.mp hkeys
    cases items with
    | nil => rfl
    | cons w items =>
      rw [List.zip_cons_cons, Json.lookup_cons_eq]
      cases place with
      | zero =>
        obtain rfl := Option.some.inj hplace
        rw [if_pos rfl]
        rfl
      | succ place =>
        have hne : key ≠ first := by
          rintro rfl
          exact hfirst (List.mem_of_getElem? hplace)
        rw [if_neg hne]
        exact ih hrest hplace items

namespace Decode

variable {α σ φ : Type} {type : String}

/-- The value stands for `a`, and nothing in it was left out. -/
structure Decodes (decode : Value → Logged (Decoded α)) (w : Value) (a : α) : Prop where
  value : (decode w).value = .ok a
  quiet : (decode w).Quiet

/-! ### Leniency -/

theorem decodes_settle {w : Value} {decoded : Logged (Decoded α)}
    (hq : (settle type w decoded).Quiet) :
    Option.Rel (Decodes fun _ => decoded) (given (some w)) (settle type w decoded).value := by
  by_cases hw : w = .null
  · subst hw
    exact .none
  · rw [value_settle hw, given_some hw]
    unfold settle at hq
    split at hq
    · exact absurd rfl hw
    · obtain ⟨hdecoded, hrest⟩ := Logged.quiet_bind.mp hq
      cases hvalue : decoded.value with
      | ok a => exact .some ⟨hvalue, hdecoded⟩
      | error why =>
        rw [hvalue] at hrest
        exact absurd (Logged.quiet_bind.mp hrest).1 (Logged.not_quiet_malformed type why)

/-- **A value that is there was decoded.** -/
theorem decodes_lenient {decode : Value → Logged (Decoded α)} {w : Value}
    (hq : (lenient type decode w).Quiet) :
    Option.Rel (Decodes decode) (given (some w)) (lenient type decode w).value := by
  refine rel_mono (decodes_settle hq) fun u a hu h => ?_
  rw [eq_of_given hu]
  exact ⟨h.value, h.quiet⟩

theorem decodes_lenientItems {decode : Value → Logged (Decoded α)} {items : List Value}
    (hq : (lenientItems type decode items).Quiet) :
    List.Forall₂ (Decodes decode) (givenItems items) (lenientItems type decode items).value := by
  induction items with
  | nil => exact .nil
  | cons w rest ih =>
    rw [lenientItems] at hq ⊢
    obtain ⟨hfirst, hq⟩ := Logged.quiet_bind.mp hq
    obtain ⟨hmore, -⟩ := Logged.quiet_bind.mp hq
    have hrel := decodes_lenient hfirst
    rw [givenItems_cons]
    simp only [Logged.value_bind, Logged.value_pure]
    generalize given (some w) = w?, (lenient type decode w).value = a? at hrel ⊢
    cases hrel with
    | none => exact ih hmore
    | some h => exact .cons h (ih hmore)

/-- **A list has an item for each that is not null.** -/
theorem decodes_lenientList {decode : Value → Logged (Decoded α)} {w : Value}
    (hq : (lenientList type decode w).Quiet) :
    OrElse (ItemsAre (Decodes decode)) [] (given (some w)) (lenientList type decode w).value := by
  cases w with
  | null => rfl
  | array items => exact ⟨items, rfl, decodes_lenientItems hq⟩
  | boolean _ | number _ | string _ | object _ =>
    exact absurd (Logged.quiet_bind.mp hq).1 (Logged.not_quiet_malformedList _)

/-! ### Records -/

namespace Shape

variable {shape : Shape φ σ}

theorem key_of_fieldOf? {key : String} {f : φ} (h : shape.fieldOf? key = some f) :
    shape.key f = key :=
  eq_of_beq (List.find?_some h :)

variable [DecidableEq φ]

/-- The value that members have for a field. -/
def valueAt (shape : Shape φ σ) (f : φ) (members : List (String × Value)) : Option Value :=
  (members.find? fun m => shape.fieldOf? m.1 == some f).map Prod.snd

/-- The value that an object or an array has for a field of a record. -/
def valueOf (shape : Shape φ σ) (v : Value) (f : φ) : Option Value :=
  match v with
  | .object members => shape.valueAt f members
  | .array items => (shape.fields.zip items).lookup f
  | _ => none

/-- `K f w? r` says what the record has in the field `f` for the value `w?`.  To put a value
    into its field makes this so, and leaves it so for the other fields. -/
structure Keeps (shape : Shape φ σ) (K : φ → Option Value → σ → Prop) : Prop where
  self : ∀ {f w r r'}, (shape.put f w r).value = .ok r' → (shape.put f w r).Quiet → K f (some w) r'
  other : ∀ {f g w w? r r'}, (shape.put f w r).value = .ok r' → g ≠ f → K g w? r → K g w? r'

variable {K : φ → Option Value → σ → Prop}

theorem valueAt_cons (key : String) (w : Value) (f : φ) (rest : List (String × Value)) :
    shape.valueAt f ((key, w) :: rest) =
      if shape.fieldOf? key = some f then some w else shape.valueAt f rest := by
  rw [valueAt, List.find?_cons]
  split_ifs with hkey
  · rw [hkey, beq_self_eq_true]
    rfl
  · rw [beq_false_of_ne hkey]
    rfl

/-- Among different keys only one names a field. -/
theorem valueAt_eq_none {key : String} {f : φ} {members : List (String × Value)}
    (hkey : shape.fieldOf? key = some f) (hnew : key ∉ members.map Prod.fst) :
    shape.valueAt f members = none := by
  rw [valueAt, Option.map_eq_none_iff, List.find?_eq_none]
  intro m hm hfield
  have hsame := (key_of_fieldOf? hkey).symm.trans (key_of_fieldOf? (beq_iff_eq.mp hfield))
  exact hnew (hsame ▸ List.mem_map_of_mem hm)

/-- What holds of one more field once it was put. -/
theorem Keeps.step (hK : shape.Keeps K) {f : φ} {w : Value} {r r' : σ} {before : φ → Option Value}
    (hr : ∀ g, K g (before g) r) (hput : (shape.put f w r).value = .ok r')
    (hq : (shape.put f w r).Quiet) (g : φ) : K g (if g = f then some w else before g) r' := by
  split_ifs with hg
  · subst hg
    exact hK.self hput hq
  · exact hK.other hput hg (hr g)

theorem keeps_of_ofMembers (hK : shape.Keeps K) {members : List (String × Value)} {seen : List φ}
    {r r' : σ} {before : φ → Option Value} (hkeys : (members.map Prod.fst).Nodup)
    (hr : ∀ f, K f (before f) r) (h : (shape.ofMembers members seen r).value = .ok r')
    (hq : (shape.ofMembers members seen r).Quiet) (f : φ) :
    K f ((shape.valueAt f members).or (before f)) r' := by
  induction members generalizing seen r before with
  | nil =>
    rw [ofMembers] at h
    split at h
    · cases h
    · obtain rfl := Except.ok.inj h
      exact hr f
  | cons first rest ih =>
    obtain ⟨key, w⟩ := first
    obtain ⟨hnew, hrest⟩ := List.nodup_cons.mp hkeys
    rw [ofMembers] at h hq
    cases hkey : shape.fieldOf? key with
    | none =>
      rw [hkey] at h hq
      rw [valueAt_cons, hkey, if_neg (Option.some_ne_none f).symm]
      exact ih hrest hr h hq
    | some g =>
      simp only [hkey] at h hq
      obtain ⟨hput, hmore⟩ := Logged.quiet_bind.mp hq
      rw [Logged.value_bind] at h
      cases hvalue : (shape.put g w r).value with
      | error why =>
        rw [hvalue] at h
        cases h
      | ok r₁ =>
        rw [hvalue] at h hmore
        have hlater := ih hrest (hK.step hr hvalue hput) h hmore
        rw [valueAt_cons, hkey]
        by_cases hfg : f = g
        · subst hfg
          rw [valueAt_eq_none hkey hnew, if_pos rfl] at hlater
          rw [if_pos rfl]
          exact hlater
        · rw [if_neg hfg] at hlater
          rw [if_neg fun heq => hfg (Option.some.inj heq).symm]
          exact hlater

theorem keeps_of_ofItems (hK : shape.Keeps K) {length index : ℕ} {fields : List φ}
    {items : List Value} {r r' : σ} {before : φ → Option Value} (hfields : fields.Nodup)
    (hr : ∀ f, K f (before f) r) (h : (shape.ofItems length fields items index r).value = .ok r')
    (hq : (shape.ofItems length fields items index r).Quiet) (f : φ) :
    K f (((fields.zip items).lookup f).or (before f)) r' := by
  induction items generalizing fields index r before with
  | nil =>
    rw [List.zip_nil_right]
    cases fields with
    | nil =>
      obtain rfl := Except.ok.inj h
      exact hr f
    | cons g fields =>
      rw [ofItems] at h
      split at h
      · cases h
      · obtain rfl := Except.ok.inj h
        exact hr f
  | cons w rest ih =>
    cases fields with
    | nil => cases h
    | cons g fields =>
      obtain ⟨hnew, hrest⟩ := List.nodup_cons.mp hfields
      rw [ofItems] at h hq
      obtain ⟨hput, hmore⟩ := Logged.quiet_bind.mp hq
      rw [Logged.value_bind] at h
      cases hvalue : (shape.put g w r).value with
      | error why =>
        rw [hvalue] at h
        cases h
      | ok r₁ =>
        rw [hvalue] at h hmore
        have hlater := ih hrest (hK.step hr hvalue hput) h hmore
        rw [List.zip_cons_cons, Json.lookup_cons_eq]
        by_cases hfg : f = g
        · subst hfg
          have hnone : (fields.zip rest).lookup f = none :=
            List.lookup_eq_none_iff.mpr fun p hp =>
              bne_iff_ne.mpr fun heq => hnew (heq ▸ (List.of_mem_zip hp).1)
          rw [hnone, if_pos rfl] at hlater
          rw [if_pos rfl]
          exact hlater
        · rw [if_neg hfg] at hlater
          rw [if_neg hfg]
          exact hlater

/-- **A record that is read has what it must have.** -/
theorem isSome_of_ofMembers {members : List (String × Value)} {seen : List φ} {r r' : σ}
    (h : (shape.ofMembers members seen r).value = .ok r') {f : φ} (hf : f ∈ shape.fields)
    (hrequired : shape.required f = true) :
    f ∈ seen ∨ (shape.valueAt f members).isSome = true := by
  induction members generalizing seen r with
  | nil =>
    rw [ofMembers] at h
    split at h
    · cases h
    next hnone =>
      have hseen := List.find?_eq_none.mp hnone f hf
      rw [hrequired] at hseen
      exact Or.inl (by simpa using hseen)
  | cons first rest ih =>
    obtain ⟨key, w⟩ := first
    rw [ofMembers] at h
    rw [valueAt_cons]
    cases hkey : shape.fieldOf? key with
    | none =>
      rw [hkey] at h
      rw [if_neg (Option.some_ne_none f).symm]
      exact ih h
    | some g =>
      simp only [hkey, Logged.value_bind] at h
      cases hvalue : (shape.put g w r).value with
      | error why =>
        rw [hvalue] at h
        cases h
      | ok r₁ =>
        rw [hvalue] at h
        by_cases hgf : g = f
        · rw [if_pos (congrArg some hgf)]
          exact Or.inr rfl
        · rw [if_neg fun heq => hgf (Option.some.inj heq)]
          exact (ih h).imp_left fun hmem => (List.mem_cons.mp hmem).resolve_left (Ne.symm hgf)

theorem isSome_of_ofItems {length index : ℕ} {fields : List φ} {items : List Value} {r r' : σ}
    (h : (shape.ofItems length fields items index r).value = .ok r') {f : φ} (hf : f ∈ fields)
    (hrequired : shape.required f = true) : ((fields.zip items).lookup f).isSome = true := by
  induction items generalizing fields index r with
  | nil =>
    cases fields with
    | nil => cases hf
    | cons g fields =>
      rw [ofItems] at h
      split at h
      · cases h
      next hnone => exact absurd hrequired (List.find?_eq_none.mp hnone f hf)
  | cons w rest ih =>
    cases fields with
    | nil => cases h
    | cons g fields =>
      rw [ofItems, Logged.value_bind] at h
      rw [List.zip_cons_cons, Json.lookup_cons_eq]
      cases hvalue : (shape.put g w r).value with
      | error why =>
        rw [hvalue] at h
        cases h
      | ok r₁ =>
        rw [hvalue] at h
        split_ifs with hfg
        · rfl
        · exact ih h ((List.mem_cons.mp hf).resolve_left hfg)

/-- The value for a field stands under its key or in its place. -/
theorem valueOf_eq_at? (hfields : shape.fields.Nodup) {f : φ} {place : Nat}
    (hkey : shape.fieldOf? (shape.key f) = some f) (hplace : shape.fields[place]? = some f)
    (v : Value) : shape.valueOf v f = v.at? [shape.key f] place := by
  cases v with
  | object members =>
    have hsame : (fun m : String × Value => shape.fieldOf? m.1 == some f) =
        fun m => [shape.key f].contains m.1 := by
      funext m
      rw [Bool.eq_iff_iff, beq_iff_eq, List.contains_iff_mem, List.mem_singleton]
      exact ⟨fun h => (key_of_fieldOf? h).symm, fun h => h ▸ hkey⟩
    simp only [valueOf, valueAt, Json.Value.at?, hsame]
  | array items => exact lookup_zip hfields hplace items
  | null | boolean _ | number _ | string _ => rfl

/-- **A record has in each field** what the value has under its key or in its place, and has
    something there if it must. -/
theorem keeps_of_decode (hK : shape.Keeps K) (hfields : shape.fields.Nodup)
    (hkeys : ∀ f, shape.fieldOf? (shape.key f) = some f) {r r' : σ} (hr : ∀ f, K f none r)
    {v : Value} (hk : v.HasDistinctKeys) (h : (shape.decode r v).value = .ok r')
    (hq : (shape.decode r v).Quiet) (f : φ) (place : Nat)
    (hplace : shape.fields[place]? = some f) :
    K f (v.at? [shape.key f] place) r' ∧
      (shape.required f = true → (v.at? [shape.key f] place).isSome = true) := by
  have hmem : f ∈ shape.fields := List.mem_of_getElem? hplace
  rw [← valueOf_eq_at? hfields (hkeys f) hplace]
  cases v with
  | object members =>
    have hkeeps := keeps_of_ofMembers hK hk hr h hq f
    rw [Option.or_none] at hkeeps
    refine ⟨hkeeps, fun hrequired => ?_⟩
    exact (isSome_of_ofMembers h hmem hrequired).resolve_left List.not_mem_nil
  | array items =>
    have hkeeps := keeps_of_ofItems hK hfields hr h hq f
    rw [Option.or_none] at hkeeps
    exact ⟨hkeeps, isSome_of_ofItems h hmem⟩
  | null | boolean _ | number _ | string _ => cases h

end Shape

end Decode

end DesignMarkup
