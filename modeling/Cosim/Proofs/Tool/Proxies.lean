import Cosim.Proofs.Files
import Cosim.Proofs.Fmu
import Cosim.Proofs.Number.Notation
import Cosim.Proofs.Text
import Cosim.System.Component
import Cosim.Tool.Program

/-!
# Programs that make proxies

What builds rely on of a program that makes proxies: run on `<stem>.fmu` with an address, it puts an
FMU `<stem>-proxy.fmu` beside it that forwards to the address, or it fails and leaves the disk as it
was.  The tool that runs such a program then does one of the two as well.
-/

namespace Cosim

/-! ## Files that are put -/

/-- A disk with a file at a location, which is otherwise the same as another one. -/
structure Disk.Filed (d : Disk) (l : Location) (content : Content) (d' : Disk) : Prop where
  current : d'.current = d.current
  folder : d.isFolderAt l = false
  file : ∃ executable, d'.item? l = some (.file content executable)
  others : ∀ k, k ≠ l → d'.item? k = d.item? k

namespace Disk

variable {d d' : Disk} {l : Location} {content : Content} {path : String}

theorem filed_put (hne : l ≠ []) (hfolder : d.isFolderAt l = false) (content : Content)
    (executable : Bool) :
  d.Filed l content (d.put l (.file content executable))
  where
  current := current_put d l _
  folder := hfolder
  file := ⟨executable, by rw [item?_put hne, if_pos rfl]⟩
  others k hk := by rw [item?_put hne, if_neg hk]

/-- Filing a content leaves all folders as they are. -/
theorem Filed.keeps (h : d.Filed l content d') :
  Keeps (fun _ => True) d d'
  where
  current := h.current
  folders k := by
    by_cases hk : k = l
    · obtain ⟨executable, hfile⟩ := h.file
      rw [hk, h.folder, isFolderAt, hfile]
      rfl
    · rw [isFolderAt, isFolderAt, h.others k hk]
  files _ _ _ hnot := absurd trivial hnot

theorem Filed.find?_eq (h : d.Filed l content d') (hl : d.locate? path = some l) :
  ∃ executable, d'.find? path = some (.file content executable)
  := by
  obtain ⟨executable, hfile⟩ := h.file
  exact ⟨executable, by rw [find?, h.keeps.locate?_eq, hl, Option.bind_some, hfile]⟩

/-- A path that leads to where a content has been filed has that content. -/
theorem Filed.content?_eq (h : d.Filed l content d') (hl : d.locate? path = some l) :
  d'.content? path = some content
  := by
  obtain ⟨executable, hfile⟩ := h.find?_eq hl
  rw [content?, hfile]

end Disk

/-! ## Paths of proxies -/

namespace Path

/-- The name of a proxy. -/
theorem fileName?_proxyPath {fmu name : String} (h : fileName? fmu = some name) :
  fileName? (proxyPath fmu) = some ((splitExtension name).1 ++ "-proxy.fmu")
  := by
  have hstem : stem? fmu = some (splitExtension name).1 := by rw [stem?, h, Option.map_some]
  have hslash := not_mem_stem h
  rw [proxyPath, hstem]
  apply fileName?_join
  apply isStep_of_length
  · simp [toString, hslash]
  · simp [toString]

/-- A proxy is another file than its FMU. -/
theorem parts_proxyPath_ne {fmu name : String} (h : fileName? fmu = some name) :
  parts (proxyPath fmu) ≠ parts fmu
  := by
  intro hparts
  have hsame : name = (splitExtension name).1 ++ "-proxy.fmu" := by
    have hproxy := fileName?_proxyPath h
    rw [fileName?, hparts, ← fileName?, h] at hproxy
    exact Option.some.inj hproxy
  exact stem_append_ne (by decide) (by decide) hsame.symm

end Path

/-! ## Programs -/

namespace Launcher

variable {launch : Launcher} {program : String} {address : Content → Option Remote} {d d' : Disk}

/-- What is relied on of a program that makes proxies, where it is known to which address the
content of a file forwards, if it is a proxy at all. -/
structure MakesProxies (launch : Launcher) (program : String)
    (address : Content → Option Remote) : Prop where
  /-- A proxy is an FMU. -/
  opens : ∀ {d : Disk} {path : String} {content : Content} {r : Remote},
    d.content? path = some content → address content = some r →
    ∃ fmu, Fmu.load path d = .ok fmu d
  /-- A run that ends well puts the proxy beside the FMU. -/
  makes : ∀ {fmu name : String} {r : Remote} {limit : Span} {d : Disk} {complaint : String}
      {d' : Disk}, Path.fileName? fmu = some name →
    launch ⟨program, [name, s!"--remote={r.host}:{r.portNumber}"], some (Path.folder fmu)⟩ limit d =
      .ok (.finished (.code 0) complaint) d' →
    ∃ l content, d.locate? (proxyPath fmu) = some l ∧ address content = some r ∧
      d.Filed l content d'
  /-- A run that ends otherwise changes nothing. -/
  spares : ∀ {call : Call} {limit : Span} {d : Disk} {ending : Ending} {d' : Disk},
    call.program = program → launch call limit d = .ok ending d' →
    (∀ complaint, ending ≠ .finished (.code 0) complaint) → d' = d
  spares_of_error : ∀ {call : Call} {limit : Span} {d : Disk} {u : Failure} {d' : Disk},
    call.program = program → launch call limit d = .error u d' → d' = d

/-- A program either ends well, or it fails and changes nothing. -/
theorem MakesProxies.run_cases (h : MakesProxies launch program address) (call : Call)
    (hcall : call.program = program) (limit : Span) (d : Disk) :
  (∃ u, launch.run call limit d = .error u d) ∨
  ∃ complaint d', launch call (deadline limit) d = .ok (.finished (.code 0) complaint) d' ∧
    launch.run call limit d = .ok () d'
  := by
  rw [run]
  split
  · exact .inl ⟨_, rfl⟩
  · cases hlaunch : launch call (deadline limit) d with
    | error u d' =>
      obtain rfl := h.spares_of_error hcall hlaunch
      exact .inl ⟨u, Action.bind_of_error hlaunch⟩
    | ok ending d' =>
      have hspares := h.spares hcall hlaunch
      cases ending with
      | notStarted reason =>
        obtain rfl := hspares fun _ => nofun
        exact .inl ⟨_, Action.bind_of_ok hlaunch⟩
      | overdue =>
        obtain rfl := hspares fun _ => nofun
        exact .inl ⟨_, Action.bind_of_ok hlaunch⟩
      | finished status complaint =>
        cases status with
        | signal number =>
          obtain rfl := hspares fun _ => nofun
          exact .inl ⟨_, Action.bind_of_ok hlaunch⟩
        | code n =>
          cases n with
          | zero => exact .inr ⟨complaint, d', rfl, Action.bind_of_ok hlaunch⟩
          | succ n =>
            obtain rfl := hspares fun _ => nofun
            exact .inl ⟨_, Action.bind_of_ok hlaunch⟩

/-- The tool that runs a program either gives the path of a proxy that forwards to the address, or
it fails and changes nothing. -/
theorem MakesProxies.proxyTool_cases (h : MakesProxies launch program address) (fmu : String)
    (r : Remote) (d : Disk) :
  (∃ u, launch.proxyTool program fmu r.host r.portNumber d = .error u d) ∨
  ∃ name l content d', Path.fileName? fmu = some name ∧
    launch.proxyTool program fmu r.host r.portNumber d = .ok (proxyPath fmu) d' ∧
    d.locate? (proxyPath fmu) = some l ∧ address content = some r ∧ d.Filed l content d'
  := by
  rw [proxyTool]
  cases hname : Path.fileName? fmu with
  | none => exact .inl ⟨_, rfl⟩
  | some name =>
    obtain ⟨u, hrun⟩ | ⟨complaint, d', hlaunch, hrun⟩ :=
      h.run_cases ⟨program, [name, s!"--remote={r.host}:{r.portNumber}"], some (Path.folder fmu)⟩
        rfl toolLimit d
    · exact .inl ⟨u, Action.bind_of_error hrun⟩
    · right
      obtain ⟨l, content, hl, haddress, hfiled⟩ := h.makes hname hlaunch
      refine ⟨name, l, content, d', rfl, ?_, hl, haddress, hfiled⟩
      have hexists : d'.pathExists (proxyPath fmu) = true := by
        obtain ⟨executable, hfile⟩ := hfiled.find?_eq hl
        rw [Disk.pathExists, hfile]
        rfl
      simp only [Action.bind_of_ok hrun, Action.get_bind]
      rw [hexists]
      rfl

end Launcher

/-! ## Stamps -/

/-- The address that a text of a host and a port number stands for. -/
def Remote.ofText? (s : String) : Option Remote := do
  let (host, portNumber) ← Text.splitLast? ':' s
  pure ⟨host, ← Literal.natural? portNumber.toList⟩

/-- An address is read back from its text. -/
theorem Remote.ofText?_text (r : Remote) :
  Remote.ofText? r.text = some r
  := by
  have hport : (toString r.portNumber).toList = Nat.toDigits 10 r.portNumber :=
    String.toList_ofList
  have hcolon : ':' ∉ (toString r.portNumber).toList := by
    rw [hport]
    intro hmem
    exact absurd (Literal.isDigit_of_mem_toDigits hmem) (by decide)
  have hsplit : Text.splitLast? ':' r.text = some (r.host, toString r.portNumber) :=
    Text.splitLast?_append hcolon r.host
  simp [Remote.ofText?, hsplit, Literal.natural?_toDigits]

/-- An FMU with one output that holds the text of an address. -/
def Content.stamped (text : String) : Content :=
  .archive [(Fmu.descriptionEntry, .ofText Fmu.speedText), ("address", .ofText text)]

/-- The address that such an FMU holds. -/
def Content.stamp? : Content → Option Remote
  | .archive [description, (_, address)] =>
    if description = (Fmu.descriptionEntry, .ofText Fmu.speedText) then
      (address.read.toOption.bind String.fromUTF8?).bind Remote.ofText?
    else none
  | _ => none

theorem Content.stamp?_stamped (r : Remote) :
  (Content.stamped r.text).stamp? = some r
  := by
  rw [Content.stamped, Content.stamp?, if_pos rfl, Archive.read_ofText, Except.toOption,
    Option.bind_some, Archive.fromUTF8?_toUTF8, Option.bind_some, Remote.ofText?_text]

/-- A file that holds an address is an FMU. -/
theorem Fmu.load_of_stamp? {d : Disk} {path : String} {content : Content} {r : Remote}
    (hcontent : d.content? path = some content) (h : content.stamp? = some r) :
  load path d = .ok ⟨path, speed.description⟩ d
  := by
  obtain ⟨l, executable, hl, hitem⟩ := Disk.content?_eq_some_iff.mp hcontent
  have hfile : d.find? path = some (.file content executable) := by
    rw [Disk.find?, hl, Option.bind_some, hitem]
  rw [Content.stamp?.eq_def] at h
  split at h
  · split at h
    · rename_i hdescription
      rw [hdescription] at hfile
      apply load_of_find? hfile rfl
      cbv
    · cases h
  · cases h

namespace Launcher

/-- The file that a call asks for, and the text of the address that it is to hold. -/
def stampOf? (call : Call) : Option (String × String) :=
  match call.arguments, call.folder with
  | [name, remote], some folder =>
    some (Path.join folder s!"{(Path.splitExtension name).1}-proxy.fmu",
      String.ofList (remote.toList.drop "--remote=".length))
  | _, _ => none

/-- A launcher whose programs put an FMU beside another one that holds the address they were called
with. -/
def stamping : Launcher := fun call _ =>
  match stampOf? call with
  | some (proxy, address) =>
    tryCatch (do
      Action.write proxy (.stamped address)
      pure (.finished (.code 0) ""))
      fun _ => pure (.finished (.code 1) "")
  | none => pure (.finished (.code 1) "")

/-- A call ends well with a new file, or it fails and changes nothing. -/
theorem stamping_cases (call : Call) (limit : Span) (d : Disk) :
  stamping call limit d = .ok (.finished (.code 1) "") d ∨
  ∃ proxy address l d', stampOf? call = some (proxy, address) ∧ d.locate? proxy = some l ∧
    d.Filed l (.stamped address) d' ∧ stamping call limit d = .ok (.finished (.code 0) "") d'
  := by
  rw [stamping]
  cases stampOf? call with
  | none => exact .inl rfl
  | some stamp =>
    obtain ⟨proxy, address⟩ := stamp
    obtain ⟨e, hwrite⟩ | ⟨l, executable, hl, hne, hfree, hwrite⟩ :=
      Action.write_cases proxy (.stamped address) d
    · exact .inl (Action.tryCatch_of_error (Action.bind_of_error hwrite))
    · exact .inr ⟨proxy, address, l, _, rfl, hl, Disk.filed_put hne hfree _ executable,
        Action.tryCatch_of_ok (Action.bind_of_ok hwrite)⟩

/-- The file and the address of a proxy. -/
theorem stampOf?_eq {fmu name : String} (hname : Path.fileName? fmu = some name) (program : String)
    (r : Remote) :
  stampOf? ⟨program, [name, s!"--remote={r.host}:{r.portNumber}"], some (Path.folder fmu)⟩ =
    some (proxyPath fmu, r.text)
  := by
  have hlength : "--remote=".length = 9 := rfl
  have haddress : String.ofList ((s!"--remote={r.host}:{r.portNumber}").toList.drop
      "--remote=".length) = r.text := by
    apply String.toList_injective
    simp [Remote.text, toString, hlength]
  rw [stampOf?, proxyPath, Path.stem?, hname]
  simp only [haddress]
  rfl

theorem makesProxies_stamping (program : String) :
  MakesProxies stamping program Content.stamp?
  where
  opens hcontent haddress := ⟨_, Fmu.load_of_stamp? hcontent haddress⟩
  makes {fmu name r limit d complaint d'} hname hrun := by
    obtain hfail | ⟨proxy, address, l, _, hstamp, hl, hfiled, hok⟩ := stamping_cases
      ⟨program, [name, s!"--remote={r.host}:{r.portNumber}"], some (Path.folder fmu)⟩ limit d
    · cases hfail.symm.trans hrun
    · cases hok.symm.trans hrun
      cases hstamp.symm.trans (stampOf?_eq hname program r)
      exact ⟨l, .stamped r.text, hl, Content.stamp?_stamped r, hfiled⟩
  spares {call limit d ending d'} _ hrun hending := by
    obtain hfail | ⟨_, _, _, _, -, -, -, hok⟩ := stamping_cases call limit d
    · cases hfail.symm.trans hrun
      rfl
    · cases hok.symm.trans hrun
      exact absurd rfl (hending "")
  spares_of_error {call limit d u d'} _ hrun := by
    obtain hfail | ⟨_, _, _, _, -, -, -, hok⟩ := stamping_cases call limit d
    · cases hfail.symm.trans hrun
    · cases hok.symm.trans hrun

end Launcher

end Cosim
