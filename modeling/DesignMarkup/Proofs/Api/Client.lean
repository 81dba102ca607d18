/-
  DesignMarkup/Proofs/Api/Client.lean
  ===================================
  **What the client asks for.**  Everything the client does for the program is one GET and
  then something that needs no network: a text is parsed, addresses are collected, a file is
  written.  An `Ask` is such a GET before anything is known of the address; it may not be
  sent at all, and it is granted only if it is answered with success.

  There is one lemma for each function of the client.  It names the one ask, if there is
  one, and says when the function succeeds, with what, and what it leaves in the files.
-/
import DesignMarkup.Api.Client
import DesignMarkup.Proofs.Api.Runs
import Mathlib.Tactic.SplitIfs

namespace DesignMarkup

/-- A GET of an address, with the token or without one. -/
structure Ask where
  address : String
  token : Option String
deriving DecidableEq, Repr

namespace Ask

variable (network : Network) (a : Ask)

/-- The request that is made, if the address and the token allow one and it is answered. -/
def request? : Option Request :=
  (Client.request a.address a.token).toOption.filter fun r => (network r).isSome

/-- The answer, if it is one of success. -/
def granted? : Option Reply := ((a.request? network).bind network).filter Reply.isSuccess

/-- The requests that come of several asks. -/
def sent (asks : List Ask) : List Request := asks.filterMap (request? network)

theorem sent_cons (rest : List Ask) :
    sent network (a :: rest) = (a.request? network).toList ++ sent network rest := by
  rw [sent, List.filterMap_cons]
  cases a.request? network <;> rfl

theorem sent_append (asks rest : List Ask) :
    sent network (asks ++ rest) = sent network asks ++ sent network rest := List.filterMap_append

variable {network a}

/-- What it takes for an ask to be sent as a request: it is an address of the web, its token
    can stand in a header, and there is an answer.  The request has the token of the ask and no
    other. -/
structure IsSentAs (network : Network) (a : Ask) (r : Request) : Prop where
  address : Url.parse? a.address = some r.url
  scheme : r.url.scheme = "http" ∨ r.url.scheme = "https"
  header : ∀ token, a.token = some token →
    ∀ c ∈ token.toList, (0x20 ≤ c.toNat ∨ c = '\t') ∧ c.toNat ≠ 0x7F
  token : r.token = a.token
  agent : r.agent = "figml/0.3.0"
  answered : ∃ reply, network r = some reply

theorem isHttp_iff {url : Url} : url.isHttp = true ↔ url.scheme = "http" ∨ url.scheme = "https" := by
  rw [Url.isHttp, Bool.or_eq_true, beq_iff_eq, beq_iff_eq]

/-- An address of the web has a host. -/
theorem authority_of_parse? {text : String} {url : Url} (h : Url.parse? text = some url)
    (hhttp : url.isHttp = true) : url.authority.isNone = false := by
  have hport : ∀ scheme, scheme = "http" ∨ scheme = "https" →
      (Url.defaultPort? scheme).isSome = true := by
    rintro scheme (rfl | rfl) <;> rfl
  unfold Url.parse? at h
  simp only [Option.bind_eq_bind, Option.bind_eq_some_iff] at h
  obtain ⟨⟨scheme, rest⟩, -, h⟩ := h
  simp only at h
  split_ifs at h with hknown
  · obtain ⟨authority, -, h⟩ := Option.bind_eq_some_iff.mp h
    obtain rfl := Option.some.inj h
    rfl
  · obtain rfl := Option.some.inj h
    exact absurd (hport scheme (isHttp_iff.mp hhttp)) hknown

theorem all_isHeaderValue_iff {token : Option String} :
    token.all Client.isHeaderValue = true ↔ ∀ text, token = some text →
      ∀ c ∈ text.toList, (0x20 ≤ c.toNat ∨ c = '\t') ∧ c.toNat ≠ 0x7F := by
  cases token with
  | none => exact ⟨fun _ => nofun, fun _ => rfl⟩
  | some text => simp [Client.isHeaderValue]

/-- **When an ask is sent, and as what.** -/
theorem request?_eq_some_iff {r : Request} : a.request? network = some r ↔ a.IsSentAs network r := by
  have hrequest : a.request? network = some r ↔
      Client.request a.address a.token = .ok r ∧ (network r).isSome = true := by
    rw [request?, Option.filter_eq_some_iff]
    cases Client.request a.address a.token <;> simp [Except.toOption]
  rw [hrequest, Option.isSome_iff_exists]
  constructor
  · rintro ⟨hok, hreply⟩
    unfold Client.request at hok
    cases hurl : Url.parse? a.address with
    | none =>
      rw [hurl] at hok
      cases hok
    | some url =>
      simp only [hurl] at hok
      split_ifs at hok with hnone htoken hhttp
      obtain rfl := Except.ok.inj hok
      simp only [Bool.not_eq_true', Bool.not_eq_false] at htoken
      exact ⟨hurl, isHttp_iff.mp hhttp, all_isHeaderValue_iff.mp htoken, rfl, rfl, hreply⟩
  · intro h
    refine ⟨?_, h.answered⟩
    have hhttp := isHttp_iff.mpr h.scheme
    have hhost := authority_of_parse? h.address hhttp
    have htoken := all_isHeaderValue_iff.mpr h.header
    obtain ⟨url, token, agent⟩ := r
    obtain rfl : token = a.token := h.token
    obtain rfl : agent = "figml/0.3.0" := h.agent
    simp [Client.request, h.address, hhost, htoken, hhttp, userAgent]

end Ask

/-! ### Writing a file with its directories -/

namespace FileTree

/-- Write a file, and tell whether that went well. -/
def overwrite (t : FileTree) (path : String) (content : ByteArray) : Bool × FileTree :=
  match t.write path content with
  | .ok t' => (true, t')
  | .error _ => (false, t)

/-- Make the directories around a file and write it, as far as that goes well. -/
def save (t : FileTree) (path : String) (content : ByteArray) : Bool × FileTree :=
  match Path.parent? path with
  | none => t.overwrite path content
  | some parent =>
    match makeDirectories (path.length + 1) parent t with
    | (.ok (), t') => t'.overwrite path content
    | (.error _, t') => (false, t')

end FileTree

/-- The value of work that gives nothing but may fail. -/
def done (success : Bool) : Option Unit := if success then some () else none

namespace Client

open Work

variable (network : Network)

theorem runs_get (address : String) (token : Option String) (t : FileTree) :
    (get network address token).Runs t (Ask.granted? network ⟨address, token⟩)
      (Ask.request? network ⟨address, token⟩).toList t := by
  unfold get Ask.granted? Ask.request?
  cases request address token with
  | error e => exact runs_throw (ClientError.http e) t
  | ok r =>
    have hask := runs_ask (ε := ClientError) network r t
    simp only [Except.toOption, Option.filter_some]
    cases hreply : network r with
    | none =>
      rw [hreply] at hask
      exact hask.bind (runs_throw (ClientError.http (.unanswered r.url)) t)
    | some reply =>
      rw [hreply] at hask
      simp only [Option.isSome_some, if_true, Option.bind_some, hreply, Option.filter_some]
      refine hask.bind ?_
      simp only
      cases reply.isSuccess with
      | true => exact runs_pure reply t
      | false => exact runs_throw (ClientError.status reply.status reply.text) t

/-- **One GET, and then work without the network,** if the GET was granted. -/
theorem runs_get_bind {β : Type} {address : String} {token : Option String}
    {f : Reply → Work ClientError β} {t : FileTree} {value? : Reply → Option β}
    {after : Reply → FileTree} (h : ∀ reply, (f reply).Runs t (value? reply) [] (after reply)) :
    (get network address token >>= f).Runs t
      ((Ask.granted? network ⟨address, token⟩).bind value?)
      (Ask.request? network ⟨address, token⟩).toList
      ((Ask.granted? network ⟨address, token⟩).elim t after) := by
  have hget := runs_get network address token t
  cases hgranted : Ask.granted? network ⟨address, token⟩ with
  | none =>
    rw [hgranted] at hget
    exact hget.bind_none
  | some reply =>
    rw [hgranted] at hget
    exact hget.bind_last (h reply)

/-- A GET and then work that reads the answer and leaves the files alone. -/
theorem runs_get_read {β : Type} {address : String} {token : Option String}
    {f : Reply → Work ClientError β} {t : FileTree} {value? : Reply → Option β}
    (h : ∀ reply, (f reply).Runs t (value? reply) [] t) :
    (get network address token >>= f).Runs t
      ((Ask.granted? network ⟨address, token⟩).bind value?)
      (Ask.request? network ⟨address, token⟩).toList t := by
  have hget := @runs_get_bind network β address token f t value? (fun _ => t) h
  have hsame : (Ask.granted? network ⟨address, token⟩).elim t (fun _ => t) = t := by
    cases Ask.granted? network ⟨address, token⟩ <;> rfl
  rwa [hsame] at hget

/-! ### The functions of the client -/

variable (c : ClientConfig) (fileKey : String) (t : FileTree)

/-- The ask for a file, or for a node of it. -/
def fileAsk (node : Option String) : Ask :=
  ⟨c.fileUrl fileKey (node.map NodeId.normalize), some c.token⟩

/-- The response that comes of the ask, if it is granted and its answer can be read. -/
def fetched? (node : Option String) : Option Response :=
  ((fileAsk c fileKey node).granted? network).bind fun reply =>
    (Response.parse reply.text).1.toOption

theorem runs_fetch (node : Option String) :
    (fetch network c fileKey node).Runs t (fetched? network c fileKey node)
      ((fileAsk c fileKey node).request? network).toList t := by
  unfold fetch
  refine Runs.note (Runs.note (runs_get_read network fun reply => ?_))
  obtain ⟨result, notices⟩ := Response.parse reply.text
  refine Runs.note ?_
  cases result with
  | ok response => exact runs_pure response t
  | error e => exact runs_throw (ClientError.parse e) t

/-- The ask for nodes to be rendered. -/
def imagesAsk (ids : List String) (format : ImageFormat) : Ask :=
  ⟨c.imagesUrl fileKey ids format, some c.token⟩

/-- The addresses that come of the ask, if it is granted and its answer makes sense. -/
def resolved? (ids : List String) (format : ImageFormat) : Option (List (String × String)) :=
  ((imagesAsk c fileKey ids format).granted? network).bind fun reply =>
    (collectImages reply.text).toOption

theorem runs_resolveImages {ids : List String} (h : ids ≠ []) (format : ImageFormat) :
    (resolveImages network c fileKey ids format).Runs t (resolved? network c fileKey ids format)
      ((imagesAsk c fileKey ids format).request? network).toList t := by
  unfold resolveImages
  rw [if_neg fun hempty => h (List.isEmpty_iff.mp hempty)]
  refine Runs.note (runs_get_read network fun reply => ?_)
  have hcollect := runs_ofExcept (collectImages reply.text) t
  cases hresult : (collectImages reply.text).toOption with
  | none =>
    rw [hresult] at hcollect
    exact hcollect.bind_none
  | some images =>
    rw [hresult] at hcollect
    exact hcollect.bind (Runs.note (runs_pure images t))

theorem runs_resolveImages_nil (format : ImageFormat) :
    (resolveImages network c fileKey [] format).Runs t (some []) [] t :=
  runs_pure [] t

/-- A download and what it leaves: whether it succeeds, and the files after it. -/
def downloaded (address path : String) : Bool × FileTree :=
  match Ask.granted? network ⟨address, none⟩ with
  | some reply => t.save path reply.body
  | none => (false, t)

/-- The end of a download: what was received is written. -/
def writeReply (path : String) (reply : Reply) : Work ClientError Unit := do
  let w ← MonadState.get
  match w.files.write path reply.body with
  | .error e => throw (.io path e)
  | .ok files =>
    set { w with files }
    Work.note [.fileWritten path reply.body.size]

theorem runs_writeReply (path : String) (reply : Reply) :
    (writeReply path reply).Runs t (done (t.overwrite path reply.body).1) []
      (t.overwrite path reply.body).2 := by
  intro w hw
  refine RunsAt.get ?_
  subst hw
  unfold FileTree.overwrite
  cases w.files.write path reply.body with
  | error e => exact runs_throw (ClientError.io path e) _ w rfl
  | ok files => exact RunsAt.set (runs_say _ files)

theorem runs_download (address path : String) :
    (download network address path).Runs t (done (downloaded network t address path).1)
      (Ask.request? network ⟨address, none⟩).toList (downloaded network t address path).2 := by
  have hsave : (download network address path).Runs t
      ((Ask.granted? network ⟨address, none⟩).bind fun reply =>
        done (t.save path reply.body).1)
      (Ask.request? network ⟨address, none⟩).toList
      ((Ask.granted? network ⟨address, none⟩).elim t fun reply =>
        (t.save path reply.body).2) := by
    unfold download
    refine runs_get_bind network fun reply => ?_
    unfold FileTree.save
    cases Path.parent? path with
    | none => exact runs_writeReply t path reply
    | some parent =>
      intro w hw
      subst hw
      refine RunsAt.get ?_
      simp only
      obtain ⟨result, files⟩ := FileTree.makeDirectories (path.length + 1) parent w.files
      cases result with
      | error e => exact RunsAt.set (runs_throw (ClientError.io path e) files).bind_none
      | ok _ => exact RunsAt.set (runs_writeReply files path reply)
  unfold downloaded
  cases hgranted : Ask.granted? network ⟨address, none⟩ with
  | none =>
    rw [hgranted] at hsave
    exact hsave
  | some reply =>
    rw [hgranted] at hsave
    exact hsave

end Client

end DesignMarkup
