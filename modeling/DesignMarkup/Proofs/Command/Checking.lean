/-
  DesignMarkup/Proofs/Command/Checking.lean
  =========================================
  **A check foretells a build.**  Both commands read a source, parse it and convert; a check
  always converts in the same way, a build as it is told to.  What it is told does not matter
  for which root is selected, or whether there is one, and the assets of the page are those of
  the root.  So where a check fails, a build fails with the same words, and where a check
  succeeds, all that is left of a build is to write.

  `readResponse_cases`, `convert_ok` and `convert_error` say all that the parts of the two
  commands can do, what they say included; `converting_cases` puts these together for any work
  that goes on with the output.
-/
import DesignMarkup.Proofs.Command.Failures
import DesignMarkup.Proofs.Page.Media

namespace DesignMarkup

/-- The world after more lines were said. -/
def World.saying (w : World) (said : List Line) : World := { w with lines := w.lines ++ said }

theorem World.saying_saying (w : World) (said more : List Line) :
    (w.saying said).saying more = w.saying (said ++ more) := by
  simp only [saying, List.append_assoc]

theorem Work.say_eq {ε : Type} (said : List Line) (w : World) :
    (Work.say said : Work ε Unit) w = .ok () (w.saying said) := rfl

/-- The assets of a page are those of its root, whatever the options. -/
theorem assets_compileRoot (root : Node) (o o' : Options) :
    (compileRoot root o).assets = (compileRoot root o').assets :=
  (Node.assets_content o.coordinates root).trans (Node.assets_content o'.coordinates root).symm

namespace Command

open Work

/-! ### Reading and converting -/

section Parts

variable (path : String) (w : World)

theorem readSource_cases :
    (∃ text, w.files.readText path = .ok text ∧ readSource path w = .ok text w) ∨
    ∃ failure, (w.files.readText path).toOption = none ∧ failure.isOfWriting = false ∧
      readSource path w = .error failure w := by
  have hget : (MonadState.get : Job World) w = .ok w w := rfl
  rw [readSource, bind_eq_of_ok hget]
  cases hpresent : w.files.isPresent path with
  | false =>
    obtain ⟨e, htext⟩ := FileTree.readText_of_absent hpresent
    rw [htext]
    exact Or.inr ⟨.missingFile path, rfl, rfl, rfl⟩
  | true =>
    cases w.files.readText path with
    | ok text => exact Or.inl ⟨text, rfl, rfl⟩
    | error e => exact Or.inr ⟨.unreadable path e, rfl, rfl, rfl⟩

/-- All that reading a response can do. -/
theorem readResponse_cases :
    ∃ notices : List Notice,
      (∃ response, sourceResponse? w.files path = some response ∧
        readResponse path w = .ok response (w.saying (notices.map .notice))) ∨
      ∃ failure, sourceResponse? w.files path = none ∧ failure.isOfWriting = false ∧
        readResponse path w = .error failure (w.saying (notices.map .notice)) := by
  unfold readResponse sourceResponse?
  rcases readSource_cases path w with ⟨text, htext, hread⟩ | ⟨failure, htext, hreason, hread⟩
  · rw [bind_eq_of_ok hread, htext]
    simp only [Except.toOption, Option.bind_some]
    obtain ⟨result, notices⟩ := Response.parse text
    refine ⟨notices, ?_⟩
    simp only
    rw [Work.note, bind_eq_of_ok (say_eq _ w)]
    cases result with
    | ok response => exact Or.inl ⟨response, rfl, rfl⟩
    | error e => exact Or.inr ⟨.badSource path e, rfl, rfl, rfl⟩
  · rw [bind_eq_of_error hread, htext]
    refine ⟨[], Or.inr ⟨failure, rfl, hreason, ?_⟩⟩
    rw [World.saying, List.map_nil, List.append_nil]

theorem convert_ok {r : Response} {node : Option String} {root : Node}
    (h : r.select node = .ok root) (o : Options) :
    convert r node o w = .ok (compileRoot root o)
      (w.saying ((r.selectNotices node ++ compileRootNotices root o).map .notice)) := by
  rw [convert, Work.note, bind_eq_of_ok (say_eq _ w), compileNotices, compile, h]
  rfl

/-- A conversion that fails does so in the same way with all options. -/
theorem convert_error {r : Response} {node : Option String} {e : SelectError}
    (h : r.select node = .error e) (o : Options) :
    convert r node o w =
      .error (.selection e) (w.saying ((r.selectNotices node).map .notice)) := by
  rw [convert, Work.note, bind_eq_of_ok (say_eq _ w), compileNotices, compile, h]
  simp only [List.append_nil]
  rfl

end Parts

/-! ### Both commands -/

/-- Read a source, convert it, and go on with the output. -/
def converting (path : String) (node : Option String) (o : Options)
    (goOn : Response → Output → Job Unit) : Job Unit := do
  let response ← readResponse path
  let output ← convert response node o
  goOn response output

/-- What a check says of a source that converts to an output. -/
def checkReport (path : String) (output : Output) : String :=
  "OK: " ++ path ++ " (" ++ toString output.html.utf8ByteSize ++ " bytes of HTML, "
    ++ toString output.assets.length ++ " asset(s))"

theorem checkSource_eq (path : String) (node : Option String) :
    checkSource path node = converting path node ⟨.inline, .document, []⟩ fun _ output =>
      Work.print (checkReport path output) := rfl

theorem buildPage_eq (path : String) (c : Choices) :
    buildPage path c none = converting path c.node (c.options []) fun response output =>
      writeOutput (c.output.getD (defaultPage path)) output
        (c.pageTitle response (sourceStem path)) := rfl

/-- **One way until the root is converted.**  With any options and whatever comes after it, the
    work goes on with the page of one and the same root, or it fails in one and the same way. -/
theorem converting_cases (path : String) (node : Option String) (w : World) :
    (∃ response root, sourceResponse? w.files path = some response ∧
      response.select node = .ok root ∧ ∀ o goOn, ∃ notices : List Notice,
        converting path node o goOn w =
          goOn response (compileRoot root o) (w.saying (notices.map .notice))) ∨
    ∃ (failure : Failure) (notices : List Notice), failure.isOfWriting = false ∧
      (∀ response root, sourceResponse? w.files path = some response →
        response.select node ≠ .ok root) ∧ ∀ o goOn,
        converting path node o goOn w = .error failure (w.saying (notices.map .notice)) := by
  unfold converting
  obtain ⟨first, ⟨response, hsource, hread⟩ | ⟨failure, hsource, hreason, hread⟩⟩ :=
    readResponse_cases path w
  · simp only [bind_eq_of_ok hread]
    have hsaying : ∀ more : List Notice, (w.saying (first.map .notice)).saying
        (more.map .notice) = w.saying ((first ++ more).map .notice) := by
      intro more
      rw [World.saying_saying, List.map_append]
    cases hselect : response.select node with
    | ok root =>
      refine Or.inl ⟨response, root, hsource, hselect, fun o goOn => ?_⟩
      rw [bind_eq_of_ok (convert_ok _ hselect o), hsaying]
      exact ⟨_, rfl⟩
    | error e =>
      refine Or.inr ⟨.selection e, first ++ response.selectNotices node, rfl,
        fun response' root h => ?_, fun o goOn => ?_⟩
      · obtain rfl := Option.some.inj (hsource.symm.trans h)
        rw [hselect]
        exact nofun
      · rw [bind_eq_of_error (convert_error _ hselect o), hsaying]
  · simp only [bind_eq_of_error hread]
    refine Or.inr ⟨failure, first, hreason, fun response root h => ?_, fun o goOn => rfl⟩
    rw [hsource] at h
    cases h

/-! ### The end of a run -/

theorem Log.text_concat (log : Log) (lines : List Line) (last : String) :
    log.text (lines ++ [.plain last]) = log.text lines ++ last ++ "\n" := by
  have hlast : String.join [last ++ "\n"] = last ++ "\n" := by simp
  simp only [Log.text, List.map_append, List.map_singleton, String.join_append, lineText, hlast,
    String.append_assoc]

section Ending

variable {network : Network} {command : Command} {files : FileTree} {w : World} (log : Log)

theorem perform_ok (h : job network command { files } = .ok () w) :
    perform log network command files = finish log 0 w := by
  rw [perform, h]

theorem perform_error {failure : Failure}
    (h : job network command { files } = .error failure w) :
    perform log network command files =
      finish log 1 (w.saying [.plain ("Error: " ++ failure.message)]) := by
  rw [perform, h]
  rfl

end Ending

section Foretelling

variable (log : Log) (network : Network) (files : FileTree) (path : String) (c : Choices)

theorem converts_build_iff {page title : String} {output : Output} :
    Converts network files (.build path c none) page output title ↔
      ∃ response root, sourceResponse? files path = some response ∧
        response.select c.node = .ok root ∧ output = compileRoot root (c.options []) ∧
        page = c.output.getD (defaultPage path) ∧
        title = c.pageTitle response (sourceStem path) := by
  constructor
  · intro h
    cases h with
    | @build _ _ _ response urls _ hsource hmap hcompile =>
      obtain rfl : [] = urls := Option.some.inj hmap
      rw [compile] at hcompile
      cases hroot : response.select c.node with
      | error e =>
        rw [hroot] at hcompile
        cases hcompile
      | ok root =>
        rw [hroot] at hcompile
        exact ⟨response, root, hsource, hroot, (Except.ok.inj hcompile).symm, rfl, rfl⟩
  · rintro ⟨response, root, hsource, hroot, rfl, rfl, rfl⟩
    refine .build hsource rfl ?_
    rw [compile, hroot]
    rfl

/-- Where a root is found, a check reports on its page, and a build has only to write. -/
theorem ends_of_root {response : Response} {root : Node}
    (hsource : sourceResponse? files path = some response)
    (hroot : response.select c.node = .ok root) :
    (∃ notices : List Notice, perform log network (.check path c.node) files =
      finish log 0 (World.saying { files } (notices.map .notice ++
        [.plain (checkReport path (compileRoot root ⟨.inline, .document, []⟩))]))) ∧
    ∃ w, w.files = files ∧ job network (.build path c none) { files } =
      writeOutput (c.output.getD (defaultPage path)) (compileRoot root (c.options []))
        (c.pageTitle response (sourceStem path)) w := by
  rcases converting_cases path c.node { files } with
    ⟨response', root', hsource', hroot', hgo⟩ | ⟨failure, notices, hreason, hnone, hfails⟩
  · obtain rfl := Option.some.inj (hsource.symm.trans hsource')
    obtain rfl := Except.ok.inj (hroot.symm.trans hroot')
    obtain ⟨notices, hcheck⟩ := hgo ⟨.inline, .document, []⟩ fun _ output =>
      Work.print (checkReport path output)
    obtain ⟨notices', hbuild⟩ := hgo (c.options []) fun response output =>
      writeOutput (c.output.getD (defaultPage path)) output (c.pageTitle response (sourceStem path))
    rw [← checkSource_eq] at hcheck
    rw [← buildPage_eq] at hbuild
    refine ⟨⟨notices, ?_⟩, _, rfl, hbuild⟩
    rw [← World.saying_saying]
    exact perform_ok log hcheck
  · exact absurd hroot (hnone response root hsource)

/-- Where no root is found, a check and a build fail in one way. -/
theorem ends_of_no_root (hnone : ∀ response root, sourceResponse? files path = some response →
      response.select c.node ≠ .ok root) :
    ∃ (failure : Failure) (notices : List Notice), failure.isOfWriting = false ∧
      perform log network (.check path c.node) files = finish log 1 (World.saying { files }
        (notices.map .notice ++ [.plain ("Error: " ++ failure.message)])) ∧
      perform log network (.build path c none) files =
        perform log network (.check path c.node) files := by
  rcases converting_cases path c.node { files } with
    ⟨response, root, hsource, hroot, -⟩ | ⟨failure, notices, hreason, -, hfails⟩
  · exact absurd hroot (hnone response root hsource)
  · have hcheck : job network (.check path c.node) { files } =
        .error failure (World.saying { files } (notices.map .notice)) := by
      rw [job, checkSource_eq, hfails]
    have hbuild : job network (.build path c none) { files } =
        .error failure (World.saying { files } (notices.map .notice)) := by
      rw [job, buildPage_eq, hfails]
    rw [perform_error log hbuild, perform_error log hcheck, World.saying_saying]
    exact ⟨failure, notices, hreason, rfl, rfl⟩

/-- **A check foretells a build.**  For every source, whatever it holds, and every node asked
    for: a check exits with success just if a build without a map of addresses, whatever it is
    told otherwise, gets past reading, parsing and converting, so that it has only to write.  If
    it does not, the two end in the same way, with code 1 and the same error.  If it does, a check
    reports the bytes of the markup and the number of assets of the page with inline styles in
    the coordinates of the document, and that is the number of assets of the page that is
    built. -/
theorem check_foretells_build :
    ((perform log network (.check path c.node) files).exitCode = 0 ↔
      ∃ page output title, Converts network files (.build path c none) page output title) ∧
    ((∀ page output title, ¬Converts network files (.build path c none) page output title) →
      perform log network (.build path c none) files =
        perform log network (.check path c.node) files ∧
      (perform log network (.check path c.node) files).exitCode = 1 ∧
      ∃ (failure : Failure) (notices : List Notice), failure.isOfWriting = false ∧
        (perform log network (.check path c.node) files).stderr =
          log.text (notices.map .notice) ++ ("Error: " ++ failure.message) ++ "\n") ∧
    ∀ page output title, Converts network files (.build path c none) page output title →
      (∃ w, w.files = files ∧
        job network (.build path c none) { files } = writeOutput page output title w) ∧
      ∃ response root checked, sourceResponse? files path = some response ∧
        response.select c.node = .ok root ∧
        output = compileRoot root (c.options []) ∧
        checked = compileRoot root ⟨.inline, .document, []⟩ ∧
        output.assets.length = checked.assets.length ∧
        ∃ notices : List Notice, (perform log network (.check path c.node) files).stderr =
          log.text (notices.map .notice) ++ ("OK: " ++ path ++ " (" ++
            toString checked.html.toUTF8.size ++ " bytes of HTML, " ++
            toString checked.assets.length ++ " asset(s))") ++ "\n" := by
  by_cases hconverts :
      ∃ page output title, Converts network files (.build path c none) page output title
  · obtain ⟨page, output, title, h⟩ := hconverts
    obtain ⟨response, root, hsource, hroot, -, -, -⟩ := (converts_build_iff network files path c).mp h
    obtain ⟨⟨notices, hcheck⟩, hbuild⟩ := ends_of_root log network files path c hsource hroot
    rw [hcheck]
    refine ⟨⟨fun _ => ⟨page, output, title, h⟩, fun _ => rfl⟩,
      fun hnone => absurd h (hnone page output title), fun page' output' title' h' => ?_⟩
    obtain ⟨response', root', hsource', hroot', rfl, rfl, rfl⟩ :=
      (converts_build_iff network files path c).mp h'
    obtain rfl := Option.some.inj (hsource.symm.trans hsource')
    obtain rfl := Except.ok.inj (hroot.symm.trans hroot')
    exact ⟨hbuild, response, root, _, hsource, hroot, rfl, rfl,
      congrArg List.length (assets_compileRoot root _ _), notices, Log.text_concat log _ _⟩
  · have hnone : ∀ response root, sourceResponse? files path = some response →
        response.select c.node ≠ .ok root := fun response root hsource hroot =>
      hconverts ⟨_, _, _, (converts_build_iff network files path c).mpr
        ⟨response, root, hsource, hroot, rfl, rfl, rfl⟩⟩
    obtain ⟨failure, notices, hreason, hcheck, hbuild⟩ :=
      ends_of_no_root log network files path c hnone
    rw [hbuild, hcheck]
    refine ⟨⟨fun hexit => ?_, fun h => absurd h hconverts⟩,
      fun _ => ⟨rfl, rfl, failure, notices, hreason, Log.text_concat log _ _⟩,
      fun page output title h => absurd ⟨page, output, title, h⟩ hconverts⟩
    cases hexit

end Foretelling

end Command

end DesignMarkup
