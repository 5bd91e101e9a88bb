import AndonConsole.Pages
import AndonConsole.DisplayCalls
import AndonConsole.OneLine
import AndonConsole.Ink

/-!
The picture of the console.

The panel follows the rows call by call. A `disp_cls` that gets its buffer makes
the panel black, and a `disp_write` that gets one for its band leaves there the
ink of its text on the colour of the row, whether or not there are buffers for
the characters. `Filled` keeps account of the buffers, and in every run the panel
shows what the menu at hand says in every band that is accounted for, whatever
was on it at power-up. The two columns right of a band are left open:
`disp_write` does not fill them, and what a long department name leaves there
can stay when `settings` is shown over it.
-/

namespace AndonConsole

open Tft

def InWindow (d : PredefinedDisplay) (px : Pixel) : Prop :=
  (staticHeightOffset d ≤ px.1 ∧ px.1 ≤ staticHeightOffset d + 159) ∧
    staticWidthOffset d ≤ px.2 ∧ px.2 ≤ staticWidthOffset d + 127

/-- The ink of a text on the colour of its row. -/
def rowColors (d : PredefinedDisplay) (line : ℕ) : Row → Pixel → Color
  | none, _ => .black
  | some (text, highlight), px =>
      if px ∈ rowInk d text line then rowFg highlight else rowBg highlight

/-! ### Buffers -/

/-- Where the last fill got its buffer: since the power-up a `disp_cls`, and of each row the
band. -/
structure Filled where
  screen : Bool
  row : ℕ → Bool

namespace Filled

def none : Filled := ⟨false, fun _ => false⟩

def all : Filled := ⟨true, fun _ => true⟩

/-- A `disp_cls` without a buffer leaves on the panel what other rows have been shown. -/
def cls (alloc : Bool) (g : Filled) : Filled :=
  if alloc then all else { g with row := fun _ => false }

def write (band : Bool) (line : ℕ) (g : Filled) : Filled :=
  { g with row := Function.update g.row line band }

@[simp] theorem write_row_self (band : Bool) (line : ℕ) (g : Filled) :
    (g.write band line).row line = band := Function.update_self _ _ _

theorem write_row_of_ne {line line' : ℕ} (h : line' ≠ line) (band : Bool) (g : Filled) :
    (g.write band line).row line' = g.row line' := Function.update_of_ne h _ _

def calls : (ℕ → RowMalloc) → List DispCall → Filled → Filled
  | _, [], g => g
  | m, .cls :: cs, g => calls (fun n => m (n + 1)) cs (g.cls (m 0).band)
  | m, .write v :: cs, g => calls (fun n => m (n + 1)) cs (g.write (m 0).band v.line)

theorem calls_all {m : ℕ → RowMalloc} (hm : ∀ n, (m n).band = true) (cs : List DispCall) :
    all.calls m cs = all := by
  induction cs generalizing m with
  | nil => rfl
  | cons c cs ih =>
      cases c with
      | cls =>
          rw [calls, cls, if_pos (hm 0)]
          exact ih fun n => hm (n + 1)
      | write v =>
          have hrow : Function.update all.row v.line true = all.row := Function.update_eq_self _ _
          rw [calls, write, hm 0, hrow]
          exact ih fun n => hm (n + 1)

end Filled

def Panel.calls (d : PredefinedDisplay) : (ℕ → RowMalloc) → List DispCall → Panel → Panel
  | _, [], p => p
  | m, .cls :: cs, p => Panel.calls d (fun n => m (n + 1)) cs (p.dispCls d (m 0).band)
  | m, .write v :: cs, p => Panel.calls d (fun n => m (n + 1)) cs (p.dispWrite (m 0) v)

/-! ### Pictures -/

/-- The panel is the picture of the screen, where the buffers could be had. -/
structure Pictures (d : PredefinedDisplay) (g : Filled) (s : Screen) (p : Panel) : Prop where
  isSetUp : p.tft.IsSetUp d
  row : ∀ line, 1 ≤ line → line ≤ 5 → g.row line = true →
    ∀ px, (initTFT d).InBand line px → InFill d px → p.pixels px = rowColors d line (s line) px
  left : g.screen = true →
    ∀ px, InWindow d px → px.1 < staticHeightOffset d + 2 → p.pixels px = .black
  around : g.screen = true →
    ∀ px, InWindow d px → (∀ line, 1 ≤ line → line ≤ 5 → ¬ (initTFT d).InBand line px) →
      p.pixels px = .black

section Pictures

variable {d : PredefinedDisplay} {g : Filled} {s : Screen} {p : Panel} {v : DispWrite}
  {m : RowMalloc} {px : Pixel}

/-- Of a panel that was only set up nothing is known. -/
theorem pictures_none (h : p.tft.IsSetUp d) (s : Screen) : Pictures d .none s p where
  isSetUp := h
  row _ _ _ hrow := nomatch hrow
  left hscreen := nomatch hscreen
  around hscreen := nomatch hscreen

theorem dispCls_of_no_buffer (h : p.tft.IsSetUp d) : p.dispCls d false = p := by
  have hfill : p.tft.tftFillScreen d false .black = [] := by
    obtain ⟨tft, pixels⟩ := p
    obtain ⟨x, y, fg, bg, rfl⟩ := h
    rw [initTFT_eq, tftFillScreen, tftPushColorRep]
    dsimp only
    rw [if_neg (by decide), if_neg (by simp)]
  rw [Panel.dispCls, hfill]
  rfl

theorem Pictures.dispCls (h : Pictures d g s p) (alloc : Bool) :
    Pictures d (g.cls alloc) .blank (p.dispCls d alloc) := by
  cases alloc with
  | false =>
      rw [dispCls_of_no_buffer h.isSetUp]
      exact ⟨h.isSetUp, fun _ _ _ hrow => (nomatch hrow), h.left, h.around⟩
  | true =>
      obtain ⟨-, hx1, hy1, hx2, hy2⟩ := h.isSetUp.geometry
      have hblack {px : Pixel} (hpx : InWindow d px) :
          (p.dispCls d true).pixels px = .black := by
        obtain ⟨hx, hy⟩ := hpx
        exact Panel.dispCls_pixels h.isSetUp (by omega) (by omega)
      refine ⟨h.isSetUp, fun line hone hfive _ px hband hfill => ?_, fun _ px hpx _ => hblack hpx,
        fun _ px hpx _ => hblack hpx⟩
      rw [← h.isSetUp.inBand_eq, h.isSetUp.inBand_iff] at hband
      obtain ⟨hlo, hhi⟩ := hfill
      exact hblack ⟨by omega, by omega⟩

theorem Pictures.dispWrite (h : Pictures d g s p) (hv : MenuRow v) (hline : v.distring.OneLine)
    (m : RowMalloc) : Pictures d (g.write m.band v.line) (s.draw [v]) (p.dispWrite m v) := by
  have hother {px : Pixel} (hpx : ¬ (initTFT d).InBand v.line px) :
      (p.dispWrite m v).pixels px = p.pixels px := by
    rw [← h.isSetUp.inBand_eq] at hpx
    exact Panel.dispWrite_pixels_of_notInBand h.isSetUp hv
      (not_leavesRow_of_no_lineFeed hline) hpx
  refine ⟨h.isSetUp.dispWrite m v, fun line hone hfive hrow px hband hfill => ?_,
    fun hscreen px hpx hleft => ?_, fun hscreen px hpx hout => ?_⟩
  · by_cases heq : line = v.line
    · subst heq
      have hm : m.band = true := by rwa [Filled.write_row_self] at hrow
      rw [s.draw_singleton_self, Panel.dispWrite_ink h.isSetUp hv hline hm hband hfill]
      rfl
    · rw [Filled.write_row_of_ne heq] at hrow
      rw [s.draw_singleton_of_ne heq, hother (Panel.bands_disjoint (initTFT_isSetUp d) heq hband)]
      exact h.row line hone hfive hrow px hband hfill
  · rw [Panel.dispWrite_pixels_of_left h.isSetUp hv hline m hleft]
    exact h.left hscreen px hpx hleft
  · rw [hother (hout v.line hv.one_le_line hv.line_le_five)]
    exact h.around hscreen px hpx hout

theorem Pictures.calls {cs : List DispCall} (h : Pictures d g s p) (m : ℕ → RowMalloc)
    (hrows : ∀ v, .write v ∈ cs → MenuRow v ∧ v.distring.OneLine) :
    Pictures d (g.calls m cs) (s.calls cs) (p.calls d m cs) := by
  induction cs generalizing g s p m with
  | nil => exact h
  | cons c cs ih =>
      have hrest : ∀ v, .write v ∈ cs → MenuRow v ∧ v.distring.OneLine :=
        fun v hv => hrows v (List.mem_cons_of_mem _ hv)
      cases c with
      | cls => exact ih (h.dispCls (m 0).band) (fun n => m (n + 1)) hrest
      | write v =>
          obtain ⟨hv, hline⟩ := hrows v List.mem_cons_self
          exact ih (h.dispWrite hv hline (m 0)) (fun n => m (n + 1)) hrest

end Pictures

/-! ### Runs with a panel -/

/-- The console, the panel, and the account of the buffers. -/
structure Shown where
  console : Console
  panel : Panel
  filled : Filled

/-- A step of the console with the calls it makes. The buffers for the screen and for the
bands are answered as `grants` allows, those for the characters in any way. After a power-up
`_init_TFT` has set the display up, and nothing else is known of the panel. -/
inductive PanelStep (T : Tables) (ans : Answers → Prop) (grants : Bool → Prop)
    (d : PredefinedDisplay) : Shown → Event → Shown → Prop
  | next {a : Answers} {b : Button} {c c' : Console} {e : Event} {cs : List DispCall}
      {m : ℕ → RowMalloc} {p : Panel} {g : Filled} :
      ans a → c.next T a b = .ok (e, c') → c.nextCalls T a b = .ok cs →
      (∀ n, grants (m n).band) →
      PanelStep T ans grants d ⟨c, p, g⟩ e ⟨c', p.calls d m cs, g.calls m cs⟩
  | powerCycle {a : Answers} {c : Console} {st : Store} {screen : Screen} {p p' : Panel}
      {g : Filled} :
      ans a → bootWith a.boot c.world.flash = .ok st → p'.tft.IsSetUp d →
      PanelStep T ans grants d ⟨c, p, g⟩ .powerCycle
        ⟨⟨.polling .appMain, { st with screen }⟩, p', .none⟩

section PanelStep

variable {T : Tables} {ans : Answers → Prop} {grants : Bool → Prop} {d : PredefinedDisplay}
  {e : Event} {x x' : Shown}

theorem PanelStep.step (h : PanelStep T ans grants d x e x') :
    Step T ans x.console e x'.console := by
  cases h with
  | next ha hnext _ _ => exact Console.step_of_next ha hnext
  | powerCycle ha hboot _ => exact .powerCycle ha hboot

/-- Every step but a power failure is one with a panel. -/
theorem exists_panelStep {a : Answers} {b : Button} {c c' : Console} (p : Panel) (g : Filled)
    (ha : ans a) (hgrants : grants true) (h : c.next T a b = .ok (e, c')) :
    ∃ p' g', PanelStep T ans grants d ⟨c, p, g⟩ e ⟨c', p', g'⟩ := by
  obtain ⟨cs, hcs, -, -⟩ := Console.yields_nextCalls h
  exact ⟨_, _, .next (m := fun _ => .ok) ha h hcs fun _ => hgrants⟩

theorem exists_panelRun {a : Answers} (bs : List Button) {c c' : Console} {es : List Event}
    (p : Panel) (g : Filled) (ha : ans a) (hgrants : grants true)
    (h : c.follow T a bs = .ok (es, c')) :
    ∃ p' g', Lib.Run (PanelStep T ans grants d) ⟨c, p, g⟩ es ⟨c', p', g'⟩ := by
  induction bs generalizing c es p g with
  | nil =>
      cases h
      exact ⟨p, g, .start⟩
  | cons b bs ih =>
      obtain ⟨⟨e, c₁⟩, hnext, h⟩ := Lib.bind_eq_ok.mp h
      obtain ⟨⟨es', c₂⟩, hrest, h⟩ := Lib.bind_eq_ok.mp h
      cases h
      obtain ⟨p₁, g₁, hstep⟩ := exists_panelStep p g ha hgrants hnext
      obtain ⟨p₂, g₂, hrun⟩ := ih p₁ g₁ hrest
      exact ⟨p₂, g₂, (Lib.Run.single hstep).trans hrun⟩

/-- The panel is the picture of the rows, and with every buffer of all of them once the main
menu has been shown. -/
structure PanelInv (T : Tables) (grants : Bool → Prop) (d : PredefinedDisplay) (x : Shown) :
    Prop where
  rows : ScreenInv T x.console
  oneLine : x.console.world.toStore.OneLine
  pictures : Pictures d x.filled x.console.world.screen x.panel
  filled : (∀ b, grants b → b = true) →
    x.console.control = .polling .appMain ∨ x.filled = .all

/-- From the poll of `app_main` the first call is `disp_cls`. -/
theorem nextCalls_appMain {a : Answers} {b : Button} {w : World} {cs : List DispCall}
    {c' : Console} (h : Console.next T a b ⟨.polling .appMain, w⟩ = .ok (e, c'))
    (hcs : Console.nextCalls T a b ⟨.polling .appMain, w⟩ = .ok cs) :
    c'.control = .polling .appMain ∨ ∃ cs', cs = .cls :: cs' := by
  obtain ⟨c, hc, h⟩ := Lib.bind_eq_ok.mp h
  cases h
  rw [poll] at hc
  rw [Console.nextCalls, pollCalls] at hcs
  split_ifs at hc hcs
  · obtain ⟨cs', -, hcs⟩ := Lib.bind_eq_ok.mp hcs
    exact .inr ⟨cs', (Except.ok.inj hcs).symm⟩
  · cases hc
    exact .inl rfl

theorem PanelInv.step (hT : T.OneLine) (hinv : PanelInv T grants d x)
    (h : PanelStep T ans grants d x e x') : PanelInv T grants d x' := by
  have hstep := h.step
  have hrows' := hstep.screenInv hinv.rows
  have hline' := hstep.oneLine hT hinv.oneLine
  cases h with
  | powerCycle _ _ hp' => exact ⟨hrows', hline', pictures_none hp' _, fun _ => .inl rfl⟩
  | @next a b c c' e cs m p g ha hnext hcs hm =>
      obtain ⟨cs', hcs', hscreen, hmenus⟩ := Console.yields_nextCalls hnext
      obtain rfl : cs = cs' := Except.ok.inj (hcs.symm.trans hcs')
      have hwritten : ∀ v, .write v ∈ cs → MenuRow v ∧ v.distring.OneLine := by
        intro v hv
        obtain ⟨menu, ws, hws, hmem⟩ := hmenus v hv
        exact ⟨Menu.shows_menuRow hws v hmem, Menu.oneLine_shows hT hinv.oneLine hws v hmem⟩
      refine ⟨hrows', hline', ?_, fun hgrants => ?_⟩
      · dsimp only at hscreen ⊢
        rw [hscreen]
        exact hinv.pictures.calls m hwritten
      · have hm' : ∀ n, (m n).band = true := fun n => hgrants _ (hm n)
        rcases hinv.filled hgrants with hmain | hall
        · obtain ⟨control, w⟩ := c
          dsimp only at hmain
          subst hmain
          refine (nextCalls_appMain hnext hcs).imp_right ?_
          rintro ⟨cs', rfl⟩
          dsimp only
          rw [Filled.calls, Filled.cls, if_pos (hm' 0)]
          exact Filled.calls_all (fun n => hm' (n + 1)) cs'
        · dsimp only at hall
          subst hall
          exact .inr (Filled.calls_all hm' cs)

/-- In the idle loop nothing has to be known of the panel. -/
theorem panelInv_appMain {w : World} {p : Panel} (hw : w.toStore.OneLine)
    (hp : p.tft.IsSetUp d) : PanelInv T grants d ⟨⟨.polling .appMain, w⟩, p, .none⟩ :=
  ⟨fun h => absurd rfl h, hw, pictures_none hp _, fun _ => .inl rfl⟩

theorem PanelInv.pictures_menu {menu : Menu} {w : World} {p : Panel} {g : Filled}
    (hinv : PanelInv T grants d ⟨⟨.polling menu, w⟩, p, g⟩) (hmenu : menu ≠ .appMain) :
    (∃ ws, menu.shows T w = .ok ws ∧ Pictures d g (Screen.blank.draw ws) p) ∧
      ((∀ b, grants b → b = true) → g = .all) := by
  obtain ⟨ws, hws, hscreen⟩ := hinv.rows hmenu
  refine ⟨⟨ws, hws, hscreen ▸ hinv.pictures⟩, fun hgrants => ?_⟩
  exact (hinv.filled hgrants).resolve_left fun hmain => hmenu (Control.polling.inj hmain)

end PanelStep

/-- **What the user sees.** In every run of the console from any panel that is set up, with
texts of one line: at every poll of every menu the panel is the picture of the rows this menu
shows, and of no others, wherever the last buffer could be had; and if all can be had, that is
everywhere. -/
theorem panel_pictures_menu {T : Tables} (ans : Answers → Prop) (grants : Bool → Prop)
    {d : PredefinedDisplay} {w₀ : World} {p₀ : Panel} (hT : T.OneLine)
    (hw₀ : w₀.toStore.OneLine) (hp₀ : p₀.tft.IsSetUp d) {es : List Event} {menu : Menu}
    {w : World} {p : Panel} {g : Filled} (hmenu : menu ≠ .appMain)
    (hrun : Lib.Run (PanelStep T ans grants d) ⟨⟨.polling .appMain, w₀⟩, p₀, .none⟩ es
      ⟨⟨.polling menu, w⟩, p, g⟩) :
    (∃ ws, menu.shows T w = .ok ws ∧ Pictures d g (Screen.blank.draw ws) p) ∧
      ((∀ b, grants b → b = true) → g = .all) := by
  have hstart : PanelInv T grants d ⟨⟨.polling .appMain, w₀⟩, p₀, .none⟩ :=
    panelInv_appMain hw₀ hp₀
  have hinv : PanelInv T grants d ⟨⟨.polling menu, w⟩, p, g⟩ :=
    hrun.invariant (I := fun _ x => PanelInv T grants d x) hstart
      fun _ _ _ _ hinv hstep => hinv.step hT hstep
  exact hinv.pictures_menu hmenu

theorem demoTables_oneLine : demoTables.OneLine where
  callRecords := by decide
  deptRecords := by
    intro r hr s hs
    simp only [demoTables, testDeptRecords, List.mem_cons, List.not_mem_nil, or_false] at hr
    rcases hr with rfl | rfl
    all_goals
      cases hs
      decide

theorem unset_oneLine : World.unset.toStore.OneLine := ⟨by decide, by intro s hs; cases hs⟩

theorem exists_follow_demo : ∃ es w,
    Console.follow demoTables .ok ⟨.polling .appMain, World.unset⟩
      [.ok, .ok, .down, .down, .ok, .down, .ok, .none] =
        .ok (es, ⟨.polling (.settings 0 3), w⟩) ∧
    w.department = ⟨some (.ofString "Department 2"), some (.ofString "2")⟩ := ⟨_, _, rfl, rfl⟩

/-- It is chosen on a panel full of green, with every buffer. -/
theorem panel_pictures_menu_demo :
    ∃ w p, w.department = ⟨some (.ofString "Department 2"), some (.ofString "2")⟩ ∧
      ∃ ws, (Menu.settings 0 3).shows demoTables w = .ok ws ∧
        Pictures .none .all (Screen.blank.draw ws) p := by
  let p₀ : Panel := ⟨initTFT .none, fun _ => .green⟩
  obtain ⟨es, w, hfollow, hdept⟩ := exists_follow_demo
  obtain ⟨p, g, hrun⟩ : ∃ p g, Lib.Run (PanelStep demoTables (fun _ => True) (· = true) .none)
      ⟨⟨.polling .appMain, World.unset⟩, p₀, .none⟩ es ⟨⟨.polling (.settings 0 3), w⟩, p, g⟩ :=
    exists_panelRun _ p₀ .none trivial rfl hfollow
  obtain ⟨hpictures, hall⟩ := panel_pictures_menu _ _ demoTables_oneLine unset_oneLine
    (initTFT_isSetUp .none) (by simp) hrun
  obtain rfl := hall fun _ hb => hb
  exact ⟨w, p, hdept, hpictures⟩

end AndonConsole
