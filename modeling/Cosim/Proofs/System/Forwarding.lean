import Cosim.Proofs.System.Turns
import Cosim.Proofs.Tool.Proxies

/-!
# Addresses of proxies

The proxy of an FMU has a name that does not depend on the address.  Of all components with a proxy
in one file the last one decides to which address the file forwards.  So every component with a
proxy talks to its own host exactly if those that share a file have the same address.
-/

namespace Cosim

/-- The address that a file forwards to, where it is known to which one its content does. -/
def Disk.forwardsTo? (d : Disk) (address : Content → Option Remote) (path : String) :
    Option Remote :=
  (d.content? path).bind address

namespace System

open Launcher (MakesProxies)

variable {folder program : String} {launch : Launcher} {address : Content → Option Remote}
  {d d' : Disk} {l : Location} {t : Turn} {turns : List Turn}

/-- Whether a turn has generated a proxy at a location. -/
def Turn.hasProxyAt (d : Disk) (l : Location) (t : Turn) : Bool :=
  t.isProxied && d.locate? t.component.fmu.file == some l

/-- A turn has a proxy at a location exactly if it is proxied and its file leads there. -/
theorem Turn.hasProxyAt_iff :
  t.hasProxyAt d l = true ↔ t.isProxied = true ∧ d.locate? t.component.fmu.file = some l
  := by
  rw [hasProxyAt, Bool.and_eq_true, beq_iff_eq]

/-! ## Single turns -/

/-- A turn without a proxy changes nothing.  One with a proxy puts it into its file. -/
theorem Turn.Runs.proxy_cases (hmakes : MakesProxies launch program address)
    (h : t.Runs folder (launch.proxyTool program) d d') :
  (t.isProxied = false ∧ d' = d) ∨
  ∃ r l content, t.isProxied = true ∧ t.entry.address? = some r ∧
    d.locate? t.component.fmu.file = some l ∧ address content = some r ∧ d.Filed l content d'
  := by
  obtain ⟨finalName, hproxied, -⟩ := h.exists_proxied
  have hplain (hsame : t.component.fmu = t.opened) : t.isProxied = false := by
    rw [Turn.isProxied, hsame]
    simp
  obtain ⟨-, -, hsame, rfl⟩ | ⟨r, -, haddress, hproxify, -⟩ := proxied_cases hproxied
  · exact .inl ⟨hplain hsame, rfl⟩
  obtain ⟨u, htool⟩ | ⟨name, l, content, d₁, hname, htool, hl, hcontent, hfiled⟩ :=
    hmakes.proxyTool_cases t.opened.file r d
  · left
    obtain ⟨hsame, rfl⟩ : t.component.fmu = t.opened ∧ d' = d := by
      simpa using hproxify.symm.trans (proxify_of_error htool)
    exact ⟨hplain hsame, rfl⟩
  · right
    obtain ⟨proxy, hload⟩ := hmakes.opens (hfiled.content?_eq hl) hcontent
    have hfile : proxy.file = proxyPath t.opened.file := (Fmu.load_eq_ok hload).2.1
    rw [← hfile] at htool hload
    obtain ⟨rfl, rfl⟩ : t.component.fmu = proxy ∧ d' = d₁ := by
      simpa using hproxify.symm.trans (proxify_of_ok htool hload)
    refine ⟨r, l, content, ?_, haddress, hfile ▸ hl, hcontent, hfiled⟩
    rw [Turn.isProxied, hfile, Bool.not_eq_true', beq_eq_false_iff_ne]
    exact Path.parts_proxyPath_ne hname

/-- A proxied turn files a content that forwards to its address. -/
theorem Turn.Runs.exists_filed (hmakes : MakesProxies launch program address)
    (h : t.Runs folder (launch.proxyTool program) d d') (hproxied : t.isProxied = true) :
  ∃ r l content, t.entry.address? = some r ∧ d.locate? t.component.fmu.file = some l ∧
    address content = some r ∧ d.Filed l content d'
  := by
  obtain ⟨hplain, -⟩ | ⟨r, l, content, -, hfiled⟩ := h.proxy_cases hmakes
  · rw [hproxied] at hplain
    cases hplain
  · exact ⟨r, l, content, hfiled⟩

/-! ## All turns -/

namespace Runs

variable (hmakes : MakesProxies launch program address)
include hmakes

/-- Turns leave all folders as they are. -/
theorem keeps (h : Runs folder (launch.proxyTool program) d turns d') :
  Disk.Keeps (fun _ => True) d d'
  := by
  induction h with
  | nil d => apply Disk.Keeps.refl
  | cons ht _ ih =>
    obtain ⟨-, rfl⟩ | ⟨_, _, _, -, -, -, -, hfiled⟩ := ht.proxy_cases hmakes
    · exact ih
    · exact hfiled.keeps.trans ih

/-- Where turns have proxies is the same before and behind them. -/
theorem hasProxyAt_eq (h : Runs folder (launch.proxyTool program) d turns d') :
  Turn.hasProxyAt d' = Turn.hasProxyAt d
  := by
  funext l t
  rw [Turn.hasProxyAt, Turn.hasProxyAt, (h.keeps hmakes).locate?_eq]

/-- Where no turn has generated a proxy, there is what was there before. -/
theorem item?_eq (h : Runs folder (launch.proxyTool program) d turns d')
    (hnone : ∀ t ∈ turns, ¬ t.hasProxyAt d l = true) :
  d'.item? l = d.item? l
  := by
  induction h with
  | nil d => rfl
  | @cons d d₁ d' t turns ht hruns ih =>
    rw [List.forall_mem_cons] at hnone
    have hfirst : Runs folder (launch.proxyTool program) d [t] d₁ := .cons ht (.nil d₁)
    rw [ih (by rw [hfirst.hasProxyAt_eq hmakes]; exact hnone.2)]
    obtain ⟨-, rfl⟩ | ⟨r, k, content, hproxied, -, hk, -, hfiled⟩ := ht.proxy_cases hmakes
    · rfl
    · apply hfiled.others
      rintro rfl
      exact hnone.1 (Turn.hasProxyAt_iff.mpr ⟨hproxied, hk⟩)

/-- The last turn with a proxy at a location has put it there. -/
theorem item?_of_last (h : Runs folder (launch.proxyTool program) d turns d')
    (hlast : (turns.filter (Turn.hasProxyAt d l)).getLast? = some t) :
  ∃ r content executable, t.entry.address? = some r ∧ address content = some r ∧
    d'.item? l = some (.file content executable)
  := by
  induction h with
  | nil d => cases hlast
  | @cons d d₁ d' u turns hu hruns ih =>
    have hfirst : Runs folder (launch.proxyTool program) d [u] d₁ := .cons hu (.nil d₁)
    rw [hfirst.hasProxyAt_eq hmakes] at ih
    by_cases hhas : u.hasProxyAt d l = true
    · rw [List.filter_cons_of_pos hhas, List.getLast?_cons] at hlast
      cases hmore : (turns.filter (Turn.hasProxyAt d l)).getLast? with
      | some v =>
        rw [hmore] at hlast
        exact ih (hmore.trans hlast)
      | none =>
        -- no later turn touches what this one has put
        rw [hmore] at hlast
        obtain rfl : u = t := Option.some.inj hlast
        have hnone : ∀ v ∈ turns, ¬ v.hasProxyAt d₁ l = true := by
          rw [hfirst.hasProxyAt_eq hmakes]
          exact List.filter_eq_nil_iff.mp (List.getLast?_eq_none_iff.mp hmore)
        obtain ⟨hproxied, hl⟩ := Turn.hasProxyAt_iff.mp hhas
        obtain ⟨r, k, content, haddress, hk, hcontent, hfiled⟩ := hu.exists_filed hmakes hproxied
        obtain rfl : k = l := Option.some.inj (hk.symm.trans hl)
        obtain ⟨executable, hfile⟩ := hfiled.file
        exact ⟨r, content, executable, haddress, hcontent,
          (hruns.item?_eq hmakes hnone).trans hfile⟩
    · rw [List.filter_cons_of_neg hhas] at hlast
      exact ih hlast

/-- The file of a proxied turn has a location in the end. -/
theorem exists_locate? (h : Runs folder (launch.proxyTool program) d turns d') (ht : t ∈ turns)
    (hproxied : t.isProxied = true) :
  ∃ l, d'.locate? t.component.fmu.file = some l
  := by
  induction h with
  | nil d => cases ht
  | @cons d d₁ d' u turns hu hruns ih =>
    obtain rfl | ht := List.mem_cons.mp ht
    · obtain ⟨_, l, _, -, hl, -, hfiled⟩ := hu.exists_filed hmakes hproxied
      rw [(hfiled.keeps.trans (hruns.keeps hmakes)).locate?_eq]
      exact ⟨l, hl⟩
    · exact ih ht

/-- The file of a component with a proxy forwards to the address of the last component with a proxy
in the same file. -/
theorem exists_last (h : Runs folder (launch.proxyTool program) d turns d') (ht : t ∈ turns)
    (hproxied : t.isProxied = true) :
  ∃ l u r, d'.locate? t.component.fmu.file = some l ∧
    (turns.filter (Turn.hasProxyAt d' l)).getLast? = some u ∧ u.entry.address? = some r ∧
    d'.forwardsTo? address t.component.fmu.file = some r
  := by
  obtain ⟨l, hl⟩ := h.exists_locate? hmakes ht hproxied
  have hmem : t ∈ turns.filter (Turn.hasProxyAt d' l) :=
    List.mem_filter.mpr ⟨ht, Turn.hasProxyAt_iff.mpr ⟨hproxied, hl⟩⟩
  obtain ⟨u, hu⟩ : ∃ u, (turns.filter (Turn.hasProxyAt d' l)).getLast? = some u :=
    ⟨_, List.getLast?_eq_some_getLast (List.ne_nil_of_mem hmem)⟩
  have hlast := hu
  rw [h.hasProxyAt_eq hmakes] at hlast
  obtain ⟨r, content, executable, haddress, hcontent, hitem⟩ := h.item?_of_last hmakes hlast
  refine ⟨l, u, r, hl, hu, haddress, ?_⟩
  rw [Disk.forwardsTo?, Disk.content?_eq_some_iff.mpr ⟨l, executable, hl, hitem⟩]
  exact hcontent

end Runs

/-- Of all components with proxies in one file the last one decides to which address the file
forwards.  All of them talk to their own hosts exactly if no two that share a file have different
addresses. -/
theorem proxies_forward_iff {structureValue : Value} {s : System}
    (hmakes : MakesProxies launch program address)
    (h : build folder (launch.proxyTool program) structureValue d = .ok s d') :
  ∃ turns : List Turn, turns.map Turn.record = records structureValue ∧
    Runs folder (launch.proxyTool program) d turns d' ∧
    s.components = Entries.ofPairs (turns.map Turn.named) ∧
    (∀ t ∈ turns, t.isProxied = true →
      ∃ l u r, d'.locate? t.component.fmu.file = some l ∧
        (turns.filter (Turn.hasProxyAt d' l)).getLast? = some u ∧ u.entry.address? = some r ∧
        d'.forwardsTo? address t.component.fmu.file = some r) ∧
    ((∀ t ∈ turns, t.isProxied = true →
        d'.forwardsTo? address t.component.fmu.file = t.entry.address?) ↔
      ∀ t ∈ turns, ∀ u ∈ turns, t.isProxied = true → u.isProxied = true →
        d'.locate? t.component.fmu.file = d'.locate? u.component.fmu.file →
        t.entry.address? = u.entry.address?)
  := by
  obtain ⟨turns, hrecords, hruns, hcomponents⟩ := exists_runs_of_build h
  refine ⟨turns, hrecords, hruns, hcomponents,
    fun t ht hproxied => hruns.exists_last hmakes ht hproxied, ?_⟩
  constructor
  · intro hown t ht u hu htp hup hsame
    rw [← hown t ht htp, ← hown u hu hup]
    simp only [Disk.forwardsTo?, Disk.content?, Disk.find?, hsame]
  · intro hagree t ht htp
    obtain ⟨l, u, r, hl, hlast, haddress, hforwards⟩ := hruns.exists_last hmakes ht htp
    obtain ⟨hu, hhas⟩ := List.mem_filter.mp (List.mem_of_getLast? hlast)
    obtain ⟨hup, hul⟩ := Turn.hasProxyAt_iff.mp hhas
    rw [hforwards, hagree t ht u hu htp hup (hl.trans hul.symm), haddress]

/-! ## A proxy of two components -/

/-- Two components of one FMU with proxies for different hosts. -/
def sharing : Value :=
  let component (host : String) (portNumber : Int) : Value :=
    .object [("fmu", .text "speed.fmu"), ("generate_proxy", .bool true),
      ("remoteAccess", .object [("host", .text host), ("port", .number (.int portNumber))])]
  .object [("components", .object [("left", component "north" 1), ("right", component "south" 2)])]

/-- The disk of samples with a proxy of the FMU `speed` for an address. -/
def sharedDisk (r : Remote) : Disk :=
  Fmu.sampleDisk.put ["speed-proxy.fmu"] (.file (.stamped r.text) false)

/-- The record of a component of `sharing`. -/
def sharingEntry (host : String) (portNumber : Int) : ComponentEntry :=
  ⟨"speed.fmu", none, true, some ⟨some host, some (.number (.int portNumber))⟩, [], []⟩

/-- The turn of a component in a build of `sharing`. -/
def sharingTurn (name host : String) (portNumber : Int) : Turn :=
  ⟨name, sharingEntry host portNumber, Fmu.speed,
    componentOf (name ++ "-proxy") ⟨"/speed-proxy.fmu", Fmu.speed.description⟩
      (sharingEntry host portNumber)⟩

def sharingTurns : List Turn := [sharingTurn "left" "north" 1, sharingTurn "right" "south" 2]

/-- The system of `sharing`. -/
def shared : System := ⟨sharingTurns.map Turn.named, []⟩

/-- The tool that runs a program of the sample launcher. -/
def stampingTool : ProxyTool := Launcher.stamping.proxyTool "fmu-proxify"

/-- The FMU is there beside its proxy. -/
theorem load_speed_sharedDisk (r : Remote) :
  Fmu.load "/speed.fmu" (sharedDisk r) = .ok Fmu.speed (sharedDisk r)
  := ((Fmu.reads_load "/speed.fmu").eq_ok Fmu.load_speed).2 (sharedDisk r) rfl

theorem content?_sharedDisk (r : Remote) :
  (sharedDisk r).content? "/speed-proxy.fmu" = some (.stamped r.text)
  := rfl

theorem forwardsTo?_sharedDisk (r : Remote) :
  (sharedDisk r).forwardsTo? Content.stamp? "/speed-proxy.fmu" = some r
  := by
  rw [Disk.forwardsTo?, content?_sharedDisk, Option.bind_some, Content.stamp?_stamped]

/-- The proxy is loaded with the description of its FMU. -/
theorem load_proxy_sharedDisk (r : Remote) :
  Fmu.load "/speed-proxy.fmu" (sharedDisk r) =
    .ok ⟨"/speed-proxy.fmu", Fmu.speed.description⟩ (sharedDisk r)
  := Fmu.load_of_stamp? (content?_sharedDisk r) (Content.stamp?_stamped r)

/-- The first proxy is stamped for the north. -/
theorem stampingTool_sampleDisk :
  stampingTool "/speed.fmu" "north" 1 Fmu.sampleDisk =
    .ok "/speed-proxy.fmu" (sharedDisk ⟨"north", 1⟩)
  := rfl

/-- A second proxy takes the place of the first one. -/
theorem put_sharedDisk (r r' : Remote) :
  (sharedDisk r).put ["speed-proxy.fmu"] (.file (.stamped r'.text) false) = sharedDisk r'
  := rfl

/-- The second proxy replaces the first one. -/
theorem stampingTool_sharedDisk (r : Remote) :
  stampingTool "/speed.fmu" "south" 2 (sharedDisk r) =
    .ok "/speed-proxy.fmu" (sharedDisk ⟨"south", 2⟩)
  := by
  rw [← put_sharedDisk r]
  rfl

/-- A turn of a component of `sharing`. -/
theorem runs_sharingTurn {d : Disk} {host : String} {portNumber : Int} {r : Remote} (name : String)
    (haddress : (sharingEntry host portNumber).address? = some r)
    (hload : Fmu.load (fmuPath d "/" "speed.fmu") d = .ok Fmu.speed d)
    (htool : stampingTool "/speed.fmu" r.host r.portNumber d =
      .ok "/speed-proxy.fmu" (sharedDisk r)) :
  Turn.Runs "/" stampingTool d (sharingTurn name host portNumber) (sharedDisk r)
  := Turn.runs_of_tool rfl haddress hload htool (load_proxy_sharedDisk r) (by decide)

/-- Both turns end with the proxy for the south. -/
theorem runs_sharing :
  Runs "/" stampingTool Fmu.sampleDisk sharingTurns (sharedDisk ⟨"south", 2⟩)
  := by
  have hleft : (sharingEntry "north" 1).address? = some ⟨"north", 1⟩ := by decide +kernel
  have hright : (sharingEntry "south" 2).address? = some ⟨"south", 2⟩ := by decide +kernel
  have hpath : fmuPath Fmu.sampleDisk "/" "speed.fmu" = "/speed.fmu" := by decide +kernel
  have hpath' : fmuPath (sharedDisk ⟨"north", 1⟩) "/" "speed.fmu" = "/speed.fmu" := by
    decide +kernel
  refine .cons (runs_sharingTurn "left" hleft ?_ stampingTool_sampleDisk)
    (.cons (runs_sharingTurn "right" hright ?_ (stampingTool_sharedDisk ⟨"north", 1⟩)) (.nil _))
  · rw [hpath]
    exact Fmu.load_speed
  · rw [hpath']
    exact load_speed_sharedDisk ⟨"north", 1⟩

/-- Components that share an FMU are built with one proxy. -/
theorem build_sharing :
  build "/" stampingTool sharing Fmu.sampleDisk = .ok shared (sharedDisk ⟨"south", 2⟩)
  := build_of_runs rfl runs_sharing rfl rfl

/-- The proxy of components that share an FMU forwards to the address of the last one. -/
theorem proxies_forward_sharing :
  MakesProxies Launcher.stamping "fmu-proxify" Content.stamp? ∧
    build "/" (Launcher.stamping.proxyTool "fmu-proxify") sharing Fmu.sampleDisk =
      .ok shared (sharedDisk ⟨"south", 2⟩) ∧
    ∃ turns : List Turn, turns.map Turn.record = records sharing ∧
      Runs "/" (Launcher.stamping.proxyTool "fmu-proxify") Fmu.sampleDisk turns
        (sharedDisk ⟨"south", 2⟩) ∧
      shared.components = Entries.ofPairs (turns.map Turn.named) ∧
      (∀ t ∈ turns, t.isProxied = true →
        ∃ l u r, (sharedDisk ⟨"south", 2⟩).locate? t.component.fmu.file = some l ∧
          (turns.filter (Turn.hasProxyAt (sharedDisk ⟨"south", 2⟩) l)).getLast? = some u ∧
          u.entry.address? = some r ∧
          (sharedDisk ⟨"south", 2⟩).forwardsTo? Content.stamp? t.component.fmu.file = some r) ∧
      ((∀ t ∈ turns, t.isProxied = true →
          (sharedDisk ⟨"south", 2⟩).forwardsTo? Content.stamp? t.component.fmu.file =
            t.entry.address?) ↔
        ∀ t ∈ turns, ∀ u ∈ turns, t.isProxied = true → u.isProxied = true →
          (sharedDisk ⟨"south", 2⟩).locate? t.component.fmu.file =
            (sharedDisk ⟨"south", 2⟩).locate? u.component.fmu.file →
          t.entry.address? = u.entry.address?)
  := ⟨Launcher.makesProxies_stamping "fmu-proxify", build_sharing,
    proxies_forward_iff (Launcher.makesProxies_stamping "fmu-proxify") build_sharing⟩

/-- A component with a proxy may talk to the host of another one. -/
theorem proxy_redirected :
  MakesProxies Launcher.stamping "fmu-proxify" Content.stamp? ∧
    build "/" (Launcher.stamping.proxyTool "fmu-proxify") sharing Fmu.sampleDisk =
      .ok shared (sharedDisk ⟨"south", 2⟩) ∧
    shared.components.values.map (fun c => (c.name, c.remote)) =
      [("left-proxy", some ⟨"north", 1⟩), ("right-proxy", some ⟨"south", 2⟩)] ∧
    shared.components.values.map
        (fun c => (sharedDisk ⟨"south", 2⟩).forwardsTo? Content.stamp? c.fmu.file) =
      [some ⟨"south", 2⟩, some ⟨"south", 2⟩]
  := by
  refine ⟨Launcher.makesProxies_stamping "fmu-proxify", build_sharing, by decide +kernel, ?_⟩
  change [(sharedDisk ⟨"south", 2⟩).forwardsTo? Content.stamp? "/speed-proxy.fmu",
    (sharedDisk ⟨"south", 2⟩).forwardsTo? Content.stamp? "/speed-proxy.fmu"] = _
  rw [forwardsTo?_sharedDisk]

end System

end Cosim
