/-
  DesignMarkup/Proofs/Api/Query.lean
  ==================================
  **The ids in an address.**  The client writes ids into the query of an address, each
  percent-encoded, with commas between them.  Encoding leaves no comma in an id and nothing
  else that means something in an address, so the ids can be read back from the address
  (`idsOf?`), whatever they contain, and also from the query of the request that is made
  (`query_of_parse?`).  Different ids give different addresses.

  A fetch asks for the normal form of an id, and the node is looked up under the same
  (`addresses_carry_ids`).
-/
import DesignMarkup.Design.Response
import DesignMarkup.Proofs.Api.Client
import DesignMarkup.Proofs.Style.Plain
import DesignMarkup.Proofs.Text.Blank
import DesignMarkup.Proofs.Text.Percent

namespace DesignMarkup

/-! ### The query of an address -/

namespace Url

/-- A character that stands in a query as it is. -/
def isKept (c : Char) : Bool := inQuery c && 0x20 < c.toNat && c.toNat < 0x7F

theorem isKept_of_isWritten {c : Char} (h : Text.Percent.isWritten c = true) : isKept c = true := by
  obtain ⟨hlow, hhigh⟩ := Text.Percent.range_of_isWritten h
  have hquery : c ∉ " \"#<>'".toList := by
    intro hmem
    simp only [String.reduceToList, List.mem_cons, List.not_mem_nil, or_false] at hmem
    rcases hmem with rfl | rfl | rfl | rfl | rfl | rfl
    all_goals exact absurd h (by decide)
  have hinQuery : inQuery c = true := by
    rw [inQuery, Bool.not_eq_true', ← Bool.not_eq_true, List.contains_iff_mem]
    exact hquery
  simp only [isKept, hinQuery, hlow, hhigh, decide_true, Bool.and_self]

section Query

variable {front query : List Char}

theorem encodePart_of_kept (h : ∀ c ∈ query, isKept c = true) :
    encodePart inQuery query = query := by
  induction query with
  | nil => rfl
  | cons c query ih =>
    have hc := h c List.mem_cons_self
    simp only [isKept, Bool.and_eq_true, decide_eq_true_eq] at hc
    have hone : encodeChar inQuery c = [c] := by
      rw [encodeChar, if_pos]
      simp [hc, Nat.le_of_lt hc.1.2]
    rw [encodePart, List.flatMap_cons, hone, List.singleton_append, ← encodePart,
      ih fun d hd => h d (List.mem_cons_of_mem _ hd)]

theorem clean_query {text : String} (htext : text.toList = front ++ '?' :: query)
    (h : ∀ c ∈ query, isKept c = true) :
    ∃ front', clean text = front' ++ '?' :: query ∧ front' ⊆ front := by
  have hrange : ∀ c ∈ query, 0x20 < c.toNat := by
    intro c hc
    have hkept := h c hc
    simp only [isKept, Bool.and_eq_true, decide_eq_true_eq] at hkept
    exact hkept.1.2
  have htrimmed : Text.trimBoth (fun c => c.toNat ≤ 0x20) text.toList =
      front.dropWhile (fun c => c.toNat ≤ 0x20) ++ '?' :: query := by
    rw [htext]
    apply Text.trimBoth_append_cons (by decide)
    intro c hc
    simp [hrange c hc]
  have hquery : query.filter (fun c => !(c == '\n' || c == '\r' || c == '\t')) = query := by
    rw [List.filter_eq_self]
    intro c hc
    have hc' := hrange c hc
    simp only [Bool.not_eq_true', Bool.or_eq_false_iff, beq_eq_false_iff_ne]
    refine ⟨⟨?_, ?_⟩, ?_⟩ <;> rintro rfl <;> exact absurd hc' (by decide)
  have hclean : clean text = (front.dropWhile (fun c => c.toNat ≤ 0x20)).filter
      (fun c => !(c == '\n' || c == '\r' || c == '\t')) ++ '?' :: query := by
    unfold clean
    simp only
    rw [← Text.trimBoth, htrimmed, List.filter_append, List.filter_cons_of_pos (by decide), hquery]
  refine ⟨_, hclean, fun c hc => ?_⟩
  exact (List.dropWhile_suffix _).subset (List.mem_of_mem_filter hc)

theorem splitScheme?_eq_some {text rest : List Char} {scheme : String}
    (h : splitScheme? text = some (scheme, rest)) :
    ∃ before, text = before ++ ':' :: rest ∧ '?' ∉ before := by
  unfold splitScheme? at h
  simp only at h
  split at h
  · split_ifs at h
    split at h
    next rest' hcolon =>
      obtain ⟨-, rfl⟩ := Prod.mk.inj (Option.some.inj h)
      refine ⟨_, (hcolon ▸ List.takeWhile_append_dropWhile).symm, fun hmem => ?_⟩
      exact absurd (List.mem_takeWhile_imp hmem) (by decide)
    · cases h
  · cases h

theorem splitScheme?_query {scheme : String} {rest : List Char}
    (h : splitScheme? (front ++ '?' :: query) = some (scheme, rest)) :
    ∃ front', rest = front' ++ '?' :: query ∧ front' ⊆ front := by
  obtain ⟨before, htext, hbefore⟩ := splitScheme?_eq_some h
  rcases List.append_eq_append_iff.mp htext with ⟨between, rfl, hrest⟩ | ⟨between, rfl, hrest⟩
  · cases between with
    | nil => exact absurd (List.cons_eq_cons.mp hrest).1 (by decide)
    | cons c between =>
      obtain ⟨rfl, -⟩ := List.cons_eq_cons.mp hrest
      simp at hbefore
  · cases between with
    | nil => exact absurd (List.cons_eq_cons.mp hrest).1 (by decide)
    | cons c between =>
      refine ⟨between, (List.cons_eq_cons.mp hrest).2, fun d hd => ?_⟩
      exact List.mem_append_right before (List.mem_cons_of_mem c hd)

/-- **What is written after the question mark is the query,** unless there is another one, or a
    hash sign, before it. -/
theorem query_of_parse? {text : String} {url : Url}
    (htext : text.toList = front ++ '?' :: query) (hfront : '?' ∉ front) (hhash : '#' ∉ front)
    (h : ∀ c ∈ query, isKept c = true) (hparse : parse? text = some url) :
    url.query = some (String.ofList query) := by
  obtain ⟨front₁, hclean, hsub₁⟩ := clean_query htext h
  unfold parse? at hparse
  rw [hclean] at hparse
  simp only [Option.bind_eq_bind, Option.bind_eq_some_iff] at hparse
  obtain ⟨⟨scheme, rest⟩, hscheme, hparse⟩ := hparse
  obtain ⟨front₂, rfl, hsub₂⟩ := splitScheme?_query hscheme
  simp only at hparse
  have hnohash : splitAt (· == '#') (front₂ ++ '?' :: query) = (front₂ ++ '?' :: query, []) := by
    have hnone : ∀ c ∈ front₂ ++ '?' :: query, (!(c == '#')) = true := by
      intro c hc
      simp only [Bool.not_eq_true', beq_eq_false_iff_ne]
      rintro rfl
      rcases List.mem_append.mp hc with hmem | hmem
      · exact hhash (hsub₁ (hsub₂ hmem))
      · rcases List.mem_cons.mp hmem with hmark | hmem
        · cases hmark
        · exact absurd (h '#' hmem) (by decide)
    rw [splitAt, List.takeWhile_eq_self_iff.mpr hnone, List.dropWhile_eq_nil_iff.mpr hnone]
  have hquery : splitAt (· == '?') (front₂ ++ '?' :: query) = (front₂, '?' :: query) := by
    have hnone : ∀ c ∈ front₂, (!(c == '?')) = true := by
      intro c hc
      simp only [Bool.not_eq_true', beq_eq_false_iff_ne]
      rintro rfl
      exact hfront (hsub₁ (hsub₂ hc))
    rw [splitAt, List.takeWhile_append_of_pos hnone, List.dropWhile_append_of_pos hnone]
    simp
  rw [hnohash, hquery] at hparse
  simp only [encodePart_of_kept h] at hparse
  split_ifs at hparse
  · simp only [Option.bind_eq_some_iff, Option.pure_def, Option.some.injEq] at hparse
    obtain ⟨authority, -, rfl⟩ := hparse
    rfl
  · obtain rfl := Option.some.inj hparse
    rfl

end Query

end Url

/-! ### Ids as they are written -/

namespace Client

open Text

/-- The ids that stand in a query: what is between the commas, without percent escapes. -/
def idsOf? (written : String) : Option (List String) :=
  (written.toList.splitOn ',').mapM fun part => Percent.decode? (String.ofList part)

/-- `written` stands for `ids` in a query. -/
structure Writes (written : String) (ids : List String) : Prop where
  chars : ∀ c ∈ written.toList, Percent.isUnreserved c = true ∨ c = '%' ∨ c = ','
  read : idsOf? written = some ids

theorem comma_notMem_encode (id : String) : ',' ∉ (Percent.encode id).toList := fun h =>
  absurd (Percent.isWritten_of_mem_encode h) (by decide)

theorem mapM_decode? (ids : List String) :
    (ids.map fun id => (Percent.encode id).toList).mapM
      (fun part => Percent.decode? (String.ofList part)) = some ids := by
  induction ids with
  | nil => rfl
  | cons id ids ih =>
    rw [List.map_cons, List.mapM_cons, ih, String.ofList_toList, Percent.decode?_encode]
    rfl

/-- **What is written for ids is read as these ids,** if there are any. -/
theorem writes_encode {ids : List String} (h : ids ≠ []) :
    Writes (",".intercalate (ids.map Percent.encode)) ids := by
  constructor
  · have hcomma : ∀ c ∈ ",".toList, Percent.isUnreserved c = true ∨ c = '%' ∨ c = ',' :=
      fun c hc => Or.inr (Or.inr (List.mem_singleton.mp hc))
    refine forall_mem_intercalate hcomma fun part hpart c hc => ?_
    obtain ⟨id, -, rfl⟩ := List.mem_map.mp hpart
    have hwritten := Percent.isWritten_of_mem_encode hc
    rw [Percent.isWritten, Bool.or_eq_true, beq_iff_eq] at hwritten
    exact hwritten.imp_right Or.inl
  · have hchars : (",".intercalate (ids.map Percent.encode)).toList =
        [','].intercalate (ids.map fun id => (Percent.encode id).toList) := by
      rw [String.toList_intercalate, List.map_map]
      rfl
    have hparts : ∀ part ∈ ids.map fun id => (Percent.encode id).toList, ',' ∉ part := by
      intro part hpart
      obtain ⟨id, -, rfl⟩ := List.mem_map.mp hpart
      exact comma_notMem_encode id
    rw [idsOf?, hchars, List.splitOn_intercalate ',' hparts (by simpa using h), mapM_decode?]

theorem writes_encode_one (id : String) : Writes (Percent.encode id) [id] := by
  have hone := writes_encode (List.cons_ne_nil id [])
  rwa [List.map_singleton, String.intercalate_singleton] at hone

theorem Writes.isKept {written : String} {ids : List String} (h : Writes written ids) {c : Char}
    (hc : c ∈ written.toList) : Url.isKept c = true := by
  rcases h.chars c hc with hunreserved | rfl | rfl
  · exact Url.isKept_of_isWritten (by simp [Percent.isWritten, hunreserved])
  · decide
  · decide

theorem Writes.ids_eq {written : String} {ids ids' : List String} (h : Writes written ids)
    (h' : Writes written ids') : ids = ids' :=
  Option.some.inj (h.read.symm.trans h'.read)

/-! ### Addresses with ids -/

/-- `address` asks `endpoint` for `ids`, which are `written` in its query, and then for `rest`.
    Unless the endpoint brings marks of its own, a request has that query. -/
structure AsksFor (address endpoint : String) (ids : List String) (written rest : String) :
    Prop where
  address_eq : address = endpoint ++ "?ids=" ++ written ++ rest
  writes : Writes written ids
  query : '?' ∉ endpoint.toList → '#' ∉ endpoint.toList → ∀ url, Url.parse? address = some url →
    url.query = some ("ids=" ++ written ++ rest)

theorem asksFor (endpoint : String) {written rest : String} {ids : List String}
    (h : Writes written ids) (hrest : ∀ c ∈ rest.toList, Url.isKept c = true) :
    AsksFor (endpoint ++ "?ids=" ++ written ++ rest) endpoint ids written rest := by
  refine ⟨rfl, h, fun hmark hhash url hparse => ?_⟩
  have hchars : (endpoint ++ "?ids=" ++ written ++ rest).toList =
      endpoint.toList ++ '?' :: ("ids=" ++ written ++ rest).toList := by
    simp
  have hkept : ∀ c ∈ ("ids=" ++ written ++ rest).toList, Url.isKept c = true := by
    intro c hc
    simp only [String.toList_append, List.mem_append] at hc
    rcases hc with (hc | hc) | hc
    · have hids : "ids=".toList.all Url.isKept = true := by decide
      exact List.all_eq_true.mp hids c hc
    · exact h.isKept hc
    · exact hrest c hc
  rw [Url.query_of_parse? hchars hmark hhash hkept hparse, String.ofList_toList]

/-- Of the ids in one address there is one list. -/
theorem AsksFor.ids_eq {address endpoint written written' rest rest' : String}
    {ids ids' : List String} (h : AsksFor address endpoint ids written rest)
    (h' : AsksFor address endpoint ids' written' rest')
    (hrest : rest.toList.takeWhile (· ≠ '&') = [])
    (hrest' : rest'.toList.takeWhile (· ≠ '&') = []) :
    ids = ids' := by
  have hwhole := h.address_eq.symm.trans h'.address_eq
  rw [String.append_assoc, @String.append_assoc _ written', String.append_right_inj] at hwhole
  have hfront : ∀ {written rest : String} {ids : List String}, Writes written ids →
      rest.toList.takeWhile (· ≠ '&') = [] →
      (written ++ rest).toList.takeWhile (· ≠ '&') = written.toList := by
    intro written rest ids hwrites hrest
    have hnone : ∀ c ∈ written.toList, decide (c ≠ '&') = true := by
      intro c hc
      rw [decide_eq_true_eq]
      rintro rfl
      rcases hwrites.chars _ hc with hc | hc | hc
      · exact absurd hc (by decide)
      all_goals cases hc
    rw [String.toList_append, List.takeWhile_append_of_pos hnone, hrest, List.append_nil]
  have hwritten : written = written' := by
    rw [← String.toList_inj, ← hfront h.writes hrest, hwhole, hfront h'.writes hrest']
  subst hwritten
  exact h.writes.ids_eq h'.writes

end Client

/-! ### The addresses of the client -/

namespace ClientConfig

theorem base_eq_trimmedBase (c : ClientConfig) :
    ∃ slashes, c.base = c.trimmedBase ++ slashes ∧ (∀ d ∈ slashes.toList, d = '/') ∧
      c.trimmedBase.toList.getLast? ≠ some '/' := by
  have htrimmed : c.trimmedBase.toList = c.base.toList.rdropWhile (· == '/') := by
    rw [trimmedBase, String.toList_ofList, List.rdropWhile]
  refine ⟨String.ofList (c.base.toList.rtakeWhile (· == '/')), ?_, ?_, ?_⟩
  · rw [← String.toList_inj, String.toList_append, htrimmed, String.toList_ofList,
      List.rdropWhile_append_rtakeWhile]
  · intro d hd
    rw [String.toList_ofList] at hd
    have hslash := List.mem_rtakeWhile_imp hd
    exact beq_iff_eq.mp hslash
  · intro hlast
    rw [htrimmed] at hlast
    obtain ⟨hne, hslash⟩ := List.mem_getLast?_eq_getLast hlast
    exact List.rdropWhile_last_not _ _ hne (by rw [← hslash, beq_self_eq_true])

end ClientConfig

namespace Client

variable (c : ClientConfig) (fileKey : String)

theorem asksFor_imagesUrl {ids : List String} (h : ids ≠ []) (format : ImageFormat) :
    AsksFor (c.imagesUrl fileKey ids format) (c.trimmedBase ++ "/v1/images/" ++ fileKey) ids
      (",".intercalate (ids.map Text.Percent.encode)) ("&format=" ++ format.name) := by
  have hformat : ("&format=" ++ format.name).toList.all Url.isKept = true := by
    cases format <;> decide
  have hasks := asksFor (c.trimmedBase ++ "/v1/images/" ++ fileKey) (writes_encode h)
    (List.all_eq_true.mp hformat)
  rwa [← String.append_assoc] at hasks

theorem asksFor_fileUrl (id : String) :
    AsksFor (c.fileUrl fileKey (some id)) (c.trimmedBase ++ "/v1/files/" ++ fileKey ++ "/nodes")
      [id] (Text.Percent.encode id) "" := by
  have hnone : ∀ d ∈ "".toList, Url.isKept d = true := fun d hd => absurd hd List.not_mem_nil
  have haddress : c.fileUrl fileKey (some id) =
      c.trimmedBase ++ "/v1/files/" ++ fileKey ++ "/nodes" ++ "?ids=" ++ Text.Percent.encode id
        ++ "" := by
    rw [← String.toList_inj]
    simp [ClientConfig.fileUrl]
  rw [haddress]
  exact asksFor _ (writes_encode_one id) hnone

/-- **Addresses carry ids exactly.**  An address for images is the base without slashes at its
    end, the path, the key, what is written for the ids, and the format; an address for a node
    likewise.  What is written has unreserved characters, percent signs and commas only, and is
    read as the ids, in order; with one base and key, no two lists of ids have one address.  A
    fetch asks for an id that is the one under which the node is then looked up. -/
theorem addresses_carry_ids :
    (∃ slashes, c.base = c.trimmedBase ++ slashes ∧ (∀ d ∈ slashes.toList, d = '/') ∧
      c.trimmedBase.toList.getLast? ≠ some '/') ∧
    (∀ ids format, ids ≠ [] → ∃ written,
      AsksFor (c.imagesUrl fileKey ids format) (c.trimmedBase ++ "/v1/images/" ++ fileKey) ids
        written ("&format=" ++ format.name)) ∧
    (∀ id, ∃ written,
      AsksFor (c.fileUrl fileKey (some id))
        (c.trimmedBase ++ "/v1/files/" ++ fileKey ++ "/nodes") [id] written "") ∧
    (∀ (c' : ClientConfig) ids ids' format format', c'.trimmedBase = c.trimmedBase → ids ≠ [] →
      ids' ≠ [] → ids ≠ ids' →
      c.imagesUrl fileKey ids format ≠ c'.imagesUrl fileKey ids' format') ∧
    (∀ (c' : ClientConfig) id id', c'.trimmedBase = c.trimmedBase → id ≠ id' →
      c.fileUrl fileKey (some id) ≠ c'.fileUrl fileKey (some id')) ∧
    ∀ raw, ∃ id written,
      AsksFor (c.fileUrl fileKey (some id))
        (c.trimmedBase ++ "/v1/files/" ++ fileKey ++ "/nodes") [id] written "" ∧
      (∀ network t, ∃ value?, (fetch network c fileKey (some raw)).Runs t value?
        ((⟨c.fileUrl fileKey (some id), some c.token⟩ : Ask).request? network).toList t) ∧
      ∀ r : Response, r.select (some raw) =
        (r.lookup id).elim (.error (.notFound id)) .ok := by
  refine ⟨c.base_eq_trimmedBase, ?_, ?_, ?_, ?_, ?_⟩
  · intro ids format h
    exact ⟨_, asksFor_imagesUrl c fileKey h format⟩
  · intro id
    exact ⟨_, asksFor_fileUrl c fileKey id⟩
  · intro c' ids ids' format format' hbase h h' hne heq
    have hasks := asksFor_imagesUrl c fileKey h format
    have hasks' := asksFor_imagesUrl c' fileKey h' format'
    rw [heq] at hasks
    rw [hbase] at hasks'
    have hformat : ∀ format : ImageFormat,
        ("&format=" ++ format.name).toList.takeWhile (· ≠ '&') = [] := by
      intro format
      cases format <;> rfl
    exact hne (hasks.ids_eq hasks' (hformat _) (hformat _))
  · intro c' id id' hbase hne heq
    have hasks := asksFor_fileUrl c fileKey id
    have hasks' := asksFor_fileUrl c' fileKey id'
    rw [heq] at hasks
    rw [hbase] at hasks'
    exact hne (List.singleton_injective (hasks.ids_eq hasks' rfl rfl))
  · intro raw
    refine ⟨NodeId.normalize raw, _, asksFor_fileUrl c fileKey _, ?_, ?_⟩
    · intro network t
      exact ⟨_, runs_fetch network c fileKey t (some raw)⟩
    · intro r
      rw [Response.select]
      cases r.lookup (NodeId.normalize raw) <;> rfl

/-- Ids with commas, marks of an address and an accent, and an empty one; the base is written
    with slashes at its end, and without. -/
theorem addresses_carry_ids_awkward :
    let c : ClientConfig := ⟨"t", "http://a//"⟩
    let c' : ClientConfig := ⟨"u", "http://a"⟩
    (∃ written, AsksFor (c.imagesUrl "k" ["1:2", "", "a,b&c=%é"] .png)
      (c.trimmedBase ++ "/v1/images/" ++ "k") ["1:2", "", "a,b&c=%é"] written
      ("&format=" ++ ImageFormat.png.name)) ∧
    c.imagesUrl "k" ["a,b"] .png ≠ c'.imagesUrl "k" ["a", "b"] .png ∧
    c.fileUrl "k" (some "a") ≠ c'.fileUrl "k" (some "%61") := by
  intro c c'
  obtain ⟨-, himages, -, hlists, hids, -⟩ := addresses_carry_ids c "k"
  exact ⟨himages _ _ (by decide), hlists c' _ _ _ _ (by decide) (by decide) (by decide) (by decide),
    hids c' _ _ (by decide) (by decide)⟩

end Client

end DesignMarkup
