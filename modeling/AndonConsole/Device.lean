import AndonConsole.Picture
import AndonConsole.Drawings

/-!
The display device.

The console down to the wire: a call of `disp_cls` or `disp_write` is a list of
drawings, a drawing is a run of the low level driver over the registers of the
SPI peripheral, and the controller at the other end receives the bytes. The
device refines the panel call by call, so in every run the memory of the
controller is the picture of the menu, and no register is ever misused.
-/

namespace AndonConsole

open Tft
open SpiM (AtRest)

/-- The globals of the driver, the registers it writes, and the controller. -/
structure Device where
  tft : Tft
  spi : Spi
  controller : Controller

/-- `dma_desc_ct` of `spi_lobo_bus_initialize`, for the `max_transfer_sz` of `_init_TFT`. -/
def dmaDescCt : ℕ := (6 * 1024 + SpiM.maxDmaLen - 1) / SpiM.maxDmaLen

namespace Device

/-- The panel that the device implements. -/
def panel (dev : Device) : Panel := ⟨dev.tft, dev.controller.pixels⟩

/-- Make drawings; the controller receives what is sent meanwhile. -/
def draw (dev : Device) (tft : Tft) (ds : List Draw) : Except SpiFault Device := do
  let (_, spi) ← Draw.runAll dmaDescCt dev.tft.width.toNat ds dev.spi
  return { tft, spi, controller := dev.controller.receiveAll (spi.sent.drop dev.spi.sent.length) }

def dispCls (d : PredefinedDisplay) (alloc : Bool) (dev : Device) : Except SpiFault Device :=
  dev.draw dev.tft (Drawings.dispCls d dev.tft alloc)

def dispWrite (m : RowMalloc) (w : DispWrite) (dev : Device) : Except SpiFault Device :=
  dev.draw (Drawings.dispWrite m w dev.tft).1 (Drawings.dispWrite m w dev.tft).2

/-- The calls of a step, with the answers of `malloc` for each. -/
def calls (d : PredefinedDisplay) : (ℕ → RowMalloc) → List DispCall → Device →
    Except SpiFault Device
  | _, [], dev => .ok dev
  | m, .cls :: cs, dev => do calls d (fun n => m (n + 1)) cs (← dev.dispCls d (m 0).band)
  | m, .write v :: cs, dev => do calls d (fun n => m (n + 1)) cs (← dev.dispWrite (m 0) v)

/-! ### The device refines the panel -/

variable {d : PredefinedDisplay} {dev : Device}

/-- The display is set up and the driver at rest. -/
structure Ready (d : PredefinedDisplay) (dev : Device) : Prop where
  isSetUp : dev.tft.IsSetUp d
  atRest : AtRest false dev.spi

theorem Ready.draw (h : dev.Ready d) {tft : Tft} (htft : tft.IsSetUp d) {ds : List Draw}
    (hds : ∀ draw ∈ ds, Drawings.Arrives dmaDescCt draw) :
    ∃ dev', dev.draw tft ds = .ok dev' ∧ dev'.Ready d ∧
      dev'.panel = ⟨tft, Lib.overlay (ds.flatMap Draw.pixels) dev.controller.pixels⟩ := by
  have hwidth : dev.tft.width.toNat = 160 := congrArg Int.toNat h.isSetUp.geometry.1
  have hpos : 0 < dev.tft.width.toNat := by omega
  -- two lines of the display fit in the descriptors
  have hct : 6 * dev.tft.width.toNat ≤ 4092 * dmaDescCt := by
    rw [hwidth]
    decide
  obtain ⟨spi, ts, hrun, hrest, hsent, hshow⟩ :=
    Draw.runAll_sends hpos hct ds (fun draw hd => (hds draw hd).1) h.atRest
  refine ⟨⟨tft, spi, dev.controller.receiveAll ts⟩, ?_, ⟨htft, hrest⟩, ?_⟩
  · rw [Device.draw, hrun]
    show Except.ok _ = _
    rw [hsent, List.drop_left]
  · rw [panel, hshow, List.flatMap_congr fun draw hd => ?_]
    rw [Draw.arriving_eq_self (hds draw hd).2]

theorem Ready.dispCls (h : dev.Ready d) (alloc : Bool) :
    ∃ dev', dev.dispCls d alloc = .ok dev' ∧ dev'.Ready d ∧
      dev'.panel = dev.panel.dispCls d alloc := by
  have harrives : ∀ draw ∈ Drawings.dispCls d dev.tft alloc, Drawings.Arrives dmaDescCt draw :=
    Drawings.dispCls_arrives h.isSetUp
  obtain ⟨dev', hdraw, hready, hpanel⟩ := h.draw h.isSetUp harrives
  refine ⟨dev', hdraw, hready, ?_⟩
  rw [hpanel, Drawings.dispCls_pixels]
  rfl

theorem Ready.dispWrite (h : dev.Ready d) {w : DispWrite} (hw : MenuRow w) (m : RowMalloc) :
    ∃ dev', dev.dispWrite m w = .ok dev' ∧ dev'.Ready d ∧
      dev'.panel = dev.panel.dispWrite m w := by
  have hpixels := Drawings.dispWrite_pixels m w dev.tft
  have htft := h.isSetUp.dispWrite m w
  rw [hpixels] at htft
  obtain ⟨dev', hdraw, hready, hpanel⟩ :=
    h.draw htft (Drawings.dispWrite_arrives (by decide) h.isSetUp hw m)
  refine ⟨dev', hdraw, hready, ?_⟩
  rw [hpanel, Panel.dispWrite, panel, hpixels]

theorem Ready.calls {cs : List DispCall} (hrows : ∀ v, .write v ∈ cs → MenuRow v)
    (m : ℕ → RowMalloc) (h : dev.Ready d) :
    ∃ dev', dev.calls d m cs = .ok dev' ∧ dev'.Ready d ∧ dev'.panel = dev.panel.calls d m cs := by
  induction cs generalizing dev m with
  | nil => exact ⟨dev, rfl, h, rfl⟩
  | cons c cs ih =>
      have hrest : ∀ v, .write v ∈ cs → MenuRow v := fun v hv => hrows v (List.mem_cons_of_mem _ hv)
      cases c with
      | cls =>
          obtain ⟨dev₁, hcls, hready, hpanel⟩ := h.dispCls (m 0).band
          obtain ⟨dev', hcalls, hready', hpanel'⟩ := ih hrest (fun n => m (n + 1)) hready
          refine ⟨dev', ?_, hready', ?_⟩
          · rw [Device.calls, hcls]
            exact hcalls
          · rw [hpanel', hpanel]
            rfl
      | write v =>
          obtain ⟨dev₁, hwrite, hready, hpanel⟩ := h.dispWrite (hrows v List.mem_cons_self) (m 0)
          obtain ⟨dev', hcalls, hready', hpanel'⟩ := ih hrest (fun n => m (n + 1)) hready
          refine ⟨dev', ?_, hready', ?_⟩
          · rw [Device.calls, hwrite]
            exact hcalls
          · rw [hpanel', hpanel]
            rfl

end Device

/-! ### Runs with a device -/

/-- The console, what has become of the device, which may be a fault, and the account of the
buffers. -/
structure Wired where
  console : Console
  device : Except SpiFault Device
  filled : Filled

/-- A step of the console and of the device. After a power-up the display is set up again, and
nothing else is known of the device. -/
inductive DeviceStep (T : Tables) (ans : Answers → Prop) (grants : Bool → Prop)
    (d : PredefinedDisplay) : Wired → Event → Wired → Prop
  | next {a : Answers} {b : Button} {c c' : Console} {e : Event} {cs : List DispCall}
      {m : ℕ → RowMalloc} {dev : Device} {g : Filled} :
      ans a → c.next T a b = .ok (e, c') → c.nextCalls T a b = .ok cs →
      (∀ n, grants (m n).band) →
      DeviceStep T ans grants d ⟨c, .ok dev, g⟩ e ⟨c', dev.calls d m cs, g.calls m cs⟩
  | powerCycle {a : Answers} {c : Console} {st : Store} {screen : Screen}
      {r : Except SpiFault Device} {dev : Device} {g : Filled} :
      ans a → bootWith a.boot c.world.flash = .ok st → dev.Ready d →
      DeviceStep T ans grants d ⟨c, r, g⟩ .powerCycle
        ⟨⟨.polling .appMain, { st with screen }⟩, .ok dev, .none⟩

def DeviceInv (T : Tables) (grants : Bool → Prop) (d : PredefinedDisplay) (x : Wired) : Prop :=
  ∃ dev, x.device = .ok dev ∧ dev.Ready d ∧ PanelInv T grants d ⟨x.console, dev.panel, x.filled⟩

section DeviceStep

variable {T : Tables} {ans : Answers → Prop} {grants : Bool → Prop} {d : PredefinedDisplay}
  {e : Event} {x x' : Wired}

theorem DeviceInv.step (hT : T.OneLine) (hinv : DeviceInv T grants d x)
    (h : DeviceStep T ans grants d x e x') : DeviceInv T grants d x' := by
  obtain ⟨dev, hdev, hready, hpanel⟩ := hinv
  cases h with
  | @powerCycle _ c st screen _ dev' g ha hboot hready' =>
      have hstep : PanelStep T ans grants d ⟨c, dev.panel, g⟩ .powerCycle
          ⟨⟨.polling .appMain, { st with screen }⟩, dev'.panel, .none⟩ :=
        .powerCycle ha hboot hready'.isSetUp
      exact ⟨dev', rfl, hready', hpanel.step hT hstep⟩
  | @next a b c c' e cs m dev₁ g ha hnext hcs hm =>
      obtain rfl : dev₁ = dev := Except.ok.inj hdev
      obtain ⟨cs', hcs', -, hmenus⟩ := Console.yields_nextCalls hnext
      obtain rfl : cs = cs' := Except.ok.inj (hcs.symm.trans hcs')
      have hrows : ∀ v, .write v ∈ cs → MenuRow v := by
        intro v hv
        obtain ⟨menu, ws, hws, hmem⟩ := hmenus v hv
        exact Menu.shows_menuRow hws v hmem
      obtain ⟨dev', hcalls, hready', hpanel'⟩ := hready.calls hrows m
      have hstep : PanelStep T ans grants d ⟨c, dev₁.panel, g⟩ e
          ⟨c', dev₁.panel.calls d m cs, g.calls m cs⟩ := .next ha hnext hcs hm
      rw [← hpanel'] at hstep
      exact ⟨dev', hcalls, hready', hpanel.step hT hstep⟩

theorem exists_deviceRun (hT : T.OneLine) {a : Answers} (bs : List Button) {c c' : Console}
    {es : List Event} {r : Except SpiFault Device} {g : Filled} (ha : ans a)
    (hgrants : grants true) (hinv : DeviceInv T grants d ⟨c, r, g⟩)
    (h : c.follow T a bs = .ok (es, c')) :
    ∃ r' g', Lib.Run (DeviceStep T ans grants d) ⟨c, r, g⟩ es ⟨c', r', g'⟩ := by
  induction bs generalizing c es r g with
  | nil =>
      cases h
      exact ⟨r, g, .start⟩
  | cons b bs ih =>
      obtain ⟨⟨e, c₁⟩, hnext, h⟩ := Lib.bind_eq_ok.mp h
      obtain ⟨⟨es', c₂⟩, hrest, h⟩ := Lib.bind_eq_ok.mp h
      cases h
      obtain ⟨dev, rfl, -, -⟩ := id hinv
      obtain ⟨cs, hcs, -, -⟩ := Console.yields_nextCalls hnext
      have hstep : DeviceStep T ans grants d ⟨c, .ok dev, g⟩ e
          ⟨c₁, dev.calls d (fun _ => .ok) cs, g.calls (fun _ => .ok) cs⟩ :=
        .next ha hnext hcs fun _ => hgrants
      obtain ⟨r', g', hrun⟩ := ih (hinv.step hT hstep) hrest
      exact ⟨r', g', (Lib.Run.single hstep).trans hrun⟩

theorem deviceInv_appMain {w : World} {dev : Device} (hw : w.toStore.OneLine)
    (hdev : dev.Ready d) : DeviceInv T grants d ⟨⟨.polling .appMain, w⟩, .ok dev, .none⟩ :=
  ⟨dev, rfl, hdev, panelInv_appMain hw hdev.isSetUp⟩

end DeviceStep

/-- **From the buttons to the glass.** In every run of the console no register of the SPI
peripheral is misused, and at every poll of every menu the bytes that went over the wire have
made the controller show the picture of the rows of this menu, wherever the last buffer could be
had; and if all can be had, that is everywhere. -/
theorem device_pictures_menu {T : Tables} (ans : Answers → Prop) (grants : Bool → Prop)
    {d : PredefinedDisplay} {w₀ : World} {dev₀ : Device} (hT : T.OneLine)
    (hw₀ : w₀.toStore.OneLine) (hdev₀ : dev₀.Ready d) {es : List Event} {x : Wired}
    (hrun : Lib.Run (DeviceStep T ans grants d) ⟨⟨.polling .appMain, w₀⟩, .ok dev₀, .none⟩ es x) :
    ∃ dev, x.device = .ok dev ∧ AtRest false dev.spi ∧
      ∀ menu, x.console.control = .polling menu → menu ≠ .appMain →
        (∃ ws, menu.shows T x.console.world = .ok ws ∧
            Pictures d x.filled (Screen.blank.draw ws) dev.panel) ∧
          ((∀ b, grants b → b = true) → x.filled = .all) := by
  obtain ⟨dev, hdev, hready, hpanel⟩ : DeviceInv T grants d x :=
    hrun.invariant (I := fun _ x => DeviceInv T grants d x) (deviceInv_appMain hw₀ hdev₀)
      fun _ _ _ _ hinv hstep => hinv.step hT hstep
  refine ⟨dev, hdev, hready.atRest, fun menu hcontrol hmenu => ?_⟩
  obtain ⟨⟨control, w⟩, r, g⟩ := x
  obtain rfl : control = .polling menu := hcontrol
  exact hpanel.pictures_menu hmenu

/-- The second department is chosen, on a display full of green. -/
theorem device_pictures_menu_demo :
    ∃ w dev, w.department = ⟨some (.ofString "Department 2"), some (.ofString "2")⟩ ∧
      ∃ ws, (Menu.settings 0 3).shows demoTables w = .ok ws ∧
        Pictures .none .all (Screen.blank.draw ws) (Device.panel dev) := by
  let dev₀ : Device := ⟨initTFT .none, Draw.atReset, .reset fun _ => .green⟩
  have hdev₀ : dev₀.Ready .none := ⟨initTFT_isSetUp .none, Draw.atRest_atReset⟩
  obtain ⟨es, w, hfollow, hdept⟩ := exists_follow_demo
  obtain ⟨r, g, hrun⟩ : ∃ r g, Lib.Run
      (DeviceStep demoTables (fun _ => True) (· = true) .none)
      ⟨⟨.polling .appMain, World.unset⟩, .ok dev₀, .none⟩ es
      ⟨⟨.polling (.settings 0 3), w⟩, r, g⟩ :=
    exists_deviceRun demoTables_oneLine _ trivial rfl (deviceInv_appMain unset_oneLine hdev₀)
      hfollow
  obtain ⟨dev, -, -, hpictures⟩ :=
    device_pictures_menu _ _ demoTables_oneLine unset_oneLine hdev₀ hrun
  obtain ⟨hmenu, hall⟩ := hpictures _ rfl (by simp)
  obtain rfl : g = .all := hall fun _ hb => hb
  exact ⟨w, dev, hdept, hmenu⟩

end AndonConsole
