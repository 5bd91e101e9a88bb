import AndonConsole.Display
import Mathlib.Algebra.Order.Group.Int

/-!
The paged menus `showChooseCalls` and `showSetDepartment`.

Both are the same code over another array: eleven branches, chosen by the
count modulo 4 and by where the cursor stands, each a list of records and
rows. `pageLayout` is that code, with the index arithmetic of the source,
and `pageView` the simple view it is meant to be: page by page four rows,
in order, with the row of the cursor highlighted.
-/

namespace AndonConsole

/-- `records[k]`, where only the records in use may be read. -/
def recordAt {α : Type} (records : List α) (k : ℤ) : Exec α :=
  if 0 ≤ k then
    match records[k.toNat]? with
    | some r => .ok r
    | none => .error .outOfRange
  else .error .outOfRange

/-- Record index, row and highlight of each `disp_write`, in the order of the
source. `%` of the source is the truncated remainder. -/
def pageLayout (count menu_item : ℤ) : List (ℤ × ℕ × Bool) :=
  -- a last page of three rows
  if count.tmod 4 = 3 ∧ menu_item > count - 3 then
    if (menu_item - (count - 3)).tmod 3 = 1 then
      [(menu_item, 2, false), (menu_item + 1, 3, false), (menu_item - 1, 1, true)]
    else if (menu_item - (count - 3)).tmod 3 = 2 then
      [(menu_item - 2, 1, false), (menu_item, 3, false), (menu_item - 1, 2, true)]
    else
      [(menu_item - 3, 1, false), (menu_item - 2, 2, false), (menu_item - 1, 3, true)]
  -- a last page of two rows
  else if count.tmod 4 = 2 ∧ menu_item > count - 2 then
    if (menu_item - (count - 2)).tmod 2 = 1 then
      [(menu_item, 2, false), (menu_item - 1, 1, true)]
    else
      [(menu_item - 2, 1, false), (menu_item - 1, 2, true)]
  -- a last page of one row
  else if count.tmod 4 = 1 ∧ menu_item > count - 1 then
    [(menu_item - 1, 1, true)]
  -- four rows
  else
    if menu_item.tmod 4 = 1 then
      [(menu_item, 2, false), (menu_item + 1, 3, false), (menu_item + 2, 4, false),
        (menu_item - 1, 1, true)]
    else if menu_item.tmod 4 = 2 then
      [(menu_item - 2, 1, false), (menu_item, 3, false), (menu_item + 1, 4, false),
        (menu_item - 1, 2, true)]
    else if menu_item.tmod 4 = 3 then
      [(menu_item - 3, 1, false), (menu_item - 2, 2, false), (menu_item, 4, false),
        (menu_item - 1, 3, true)]
    else
      [(menu_item - 4, 1, false), (menu_item - 3, 2, false), (menu_item - 2, 3, false),
        (menu_item - 1, 4, true)]

def drawRecord {α : Type} (records : List α) (text : α → Option CString) :
    ℤ × ℕ × Bool → Exec DispWrite
  | (k, line, highlight) => do
      let r ← recordAt records k
      dispWrite (text r) 5 line highlight

/-- The code shared by the two functions: `title` is the first line shown for an
empty array, `text` the field that is printed. -/
def showRecords {α : Type} (title : String) (records : List α) (text : α → Option CString)
    (menu_item : ℤ) : Exec (List DispWrite) :=
  if records.length = 0 then
    .ok [literal title 1 false, literal "Please set on mgmt console" 2 false,
      literal "Go back" 3 true]
  else
    (pageLayout records.length menu_item).mapM (drawRecord records text)

def showChooseCalls (callRecords : List Callrecord) (menu_item : ℤ) : Exec (List DispWrite) :=
  showRecords "No calls set" callRecords Callrecord.mancalldesc menu_item

def showSetDepartment (deptRecords : List Deptrecord) (menu_item : ℤ) :
    Exec (List DispWrite) :=
  showRecords "No departments set" deptRecords Deptrecord.deptname menu_item

/-! ### Every branch draws a page -/

/-- Whatever the cursor, no branch writes a row twice, all rows are among the
first four, and the last write is the one that is highlighted. -/
theorem pageLayout_shape (count menu_item : ℤ) :
    ∃ before line, pageLayout count menu_item = before ++ [(menu_item - 1, line, true)] ∧
      (∀ p ∈ before, p.2.2 = false) ∧
      ((pageLayout count menu_item).map fun p => p.2.1).Nodup ∧
      ∀ p ∈ pageLayout count menu_item, p.2.1 ∈ [1, 2, 3, 4] := by
  -- the layout stands three times in the goal
  generalize hlayout : pageLayout count menu_item = ps
  unfold pageLayout at hlayout
  split_ifs at hlayout
  all_goals
    subst hlayout
    first
    | exact ⟨[], _, rfl, by simp⟩
    | exact ⟨[_], _, rfl, by simp⟩
    | exact ⟨[_, _], _, rfl, by simp⟩
    | exact ⟨[_, _, _], _, rfl, by simp⟩

/-! ### The pages -/

/-- `rows` rows, the records from index `base` on, with row `cursor`
highlighted. -/
def pageRows (base : ℤ) (rows : ℕ) (cursor : ℤ) : List (ℤ × ℕ × Bool) :=
  (List.range rows).map fun r : ℕ => (base + r, r + 1, decide ((r : ℤ) + 1 = cursor))

/-- The index of the first record on the page of `m`. -/
def pageBase (m : ℤ) : ℤ := 4 * ((m - 1) / 4)

/-- The number of rows on the page of `m`. -/
def pageSize (n m : ℤ) : ℕ := (min 4 (n - pageBase m)).toNat

def pageView (n m : ℤ) : List (ℤ × ℕ × Bool) :=
  pageRows (pageBase m) (pageSize n m) (m - pageBase m)

/-- The rows in the order of the code: the highlighted one last. -/
def drawOrder (ps : List (ℤ × ℕ × Bool)) : List (ℤ × ℕ × Bool) :=
  ps.filter (fun p => p.2.2 = false) ++ ps.filter (fun p => ¬ p.2.2 = false)

theorem drawOrder_perm (ps : List (ℤ × ℕ × Bool)) : (drawOrder ps).Perm ps := by
  simpa [drawOrder] using List.filter_append_perm (fun p : ℤ × ℕ × Bool => p.2.2 = false) ps

/-- A page with four records, in the middle of the list or at its end: none of
the three guards for a partial last page holds. -/
theorem pageLayout_full {n m b : ℤ} (hb : pageBase m = b) (hm : 1 ≤ m)
    (hfull : b + 4 ≤ n) : pageLayout n m = drawOrder (pageRows b 4 (m - b)) := by
  rw [pageBase] at hb
  have hn : n.tmod 4 = n % 4 := Int.tmod_eq_emod_of_nonneg (by omega)
  have hmm : m.tmod 4 = m % 4 := Int.tmod_eq_emod_of_nonneg (by omega)
  rw [pageLayout, hn, hmm, if_neg (by omega), if_neg (by omega), if_neg (by omega)]
  have hrow : m = b + 1 ∨ m = b + 2 ∨ m = b + 3 ∨ m = b + 4 := by omega
  rcases hrow with h | h | h | h
  · rw [if_pos (by omega)]
    subst h
    simp [drawOrder, pageRows, List.range_succ]
    omega
  · rw [if_neg (by omega), if_pos (by omega)]
    subst h
    simp [drawOrder, pageRows, List.range_succ]
    omega
  · rw [if_neg (by omega), if_neg (by omega), if_pos (by omega)]
    subst h
    simp [drawOrder, pageRows, List.range_succ]
    omega
  · rw [if_neg (by omega), if_neg (by omega), if_neg (by omega)]
    subst h
    simp [drawOrder, pageRows, List.range_succ]
    omega

theorem pageLayout_three {b m : ℤ} (hb : pageBase m = b) (hm : 1 ≤ m) (hle : m ≤ b + 3) :
    pageLayout (b + 3) m = drawOrder (pageRows b 3 (m - b)) := by
  rw [pageBase] at hb
  have hn : (b + 3).tmod 4 = (b + 3) % 4 := Int.tmod_eq_emod_of_nonneg (by omega)
  rw [pageLayout, hn, if_pos (by omega), Int.add_sub_cancel]
  have hrow : m = b + 1 ∨ m = b + 2 ∨ m = b + 3 := by omega
  rcases hrow with h | h | h
  all_goals
    subst h
    simp [drawOrder, pageRows, List.range_succ]
    omega

theorem pageLayout_two {b m : ℤ} (hb : pageBase m = b) (hm : 1 ≤ m) (hle : m ≤ b + 2) :
    pageLayout (b + 2) m = drawOrder (pageRows b 2 (m - b)) := by
  rw [pageBase] at hb
  have hn : (b + 2).tmod 4 = (b + 2) % 4 := Int.tmod_eq_emod_of_nonneg (by omega)
  rw [pageLayout, hn, if_neg (by omega), if_pos (by omega), Int.add_sub_cancel]
  have hrow : m = b + 1 ∨ m = b + 2 := by omega
  rcases hrow with h | h
  all_goals
    subst h
    simp [drawOrder, pageRows, List.range_succ]
  omega

theorem pageLayout_one {b m : ℤ} (hb : pageBase m = b) (hm : 1 ≤ m) (hle : m ≤ b + 1) :
    pageLayout (b + 1) m = drawOrder (pageRows b 1 (m - b)) := by
  rw [pageBase] at hb
  have hn : (b + 1).tmod 4 = (b + 1) % 4 := Int.tmod_eq_emod_of_nonneg (by omega)
  rw [pageLayout, hn, if_neg (by omega), if_neg (by omega), if_pos (by omega)]
  have hrow : m = b + 1 := by omega
  subst hrow
  simp [drawOrder, pageRows, List.range_succ]

/-- **The eleven branches draw the page of the cursor.** -/
theorem pageLayout_eq {n m : ℤ} (hm : 1 ≤ m) (hn : m ≤ n) :
    pageLayout n m = drawOrder (pageView n m) := by
  have hbase : pageBase m = 4 * ((m - 1) / 4) := rfl
  have hsize : pageSize n m = (min 4 (n - pageBase m)).toNat := rfl
  rw [pageView]
  generalize hb : pageBase m = b at *
  have hrows : b + 4 ≤ n ∨ n = b + 3 ∨ n = b + 2 ∨ n = b + 1 := by omega
  rcases hrows with hfull | hlast | hlast | hlast
  · rw [show pageSize n m = 4 by omega]
    exact pageLayout_full hb hm hfull
  · rw [show pageSize n m = 3 by omega, hlast]
    exact pageLayout_three hb hm (by omega)
  · rw [show pageSize n m = 2 by omega, hlast]
    exact pageLayout_two hb hm (by omega)
  · rw [show pageSize n m = 1 by omega, hlast]
    exact pageLayout_one hb hm (by omega)

theorem mem_pageView {n m : ℤ} {p : ℤ × ℕ × Bool} :
    p ∈ pageView n m ↔
      1 ≤ p.2.1 ∧ p.2.1 ≤ pageSize n m ∧ p.1 = pageBase m + p.2.1 - 1 ∧
        (p.2.2 = true ↔ (p.2.1 : ℤ) = m - pageBase m) := by
  obtain ⟨k, line, highlight⟩ := p
  simp only [pageView, pageRows, List.mem_map, List.mem_range, Prod.mk.injEq]
  refine ⟨fun h => ?_, fun h => ?_⟩
  · obtain ⟨r, hr, rfl, rfl, rfl⟩ := h
    refine ⟨by omega, by omega, by push_cast; omega, ?_⟩
    simp
  · obtain ⟨hone, hle, hk, hhigh⟩ := h
    refine ⟨line - 1, by omega, by omega, by omega, ?_⟩
    rw [Bool.eq_iff_iff, hhigh, decide_eq_true_iff]
    omega

theorem pageLayout_index {n m : ℤ} (hm : 1 ≤ m) (hn : m ≤ n) {p : ℤ × ℕ × Bool}
    (hp : p ∈ pageLayout n m) : 0 ≤ p.1 ∧ p.1 < n := by
  rw [pageLayout_eq hm hn, (drawOrder_perm _).mem_iff, mem_pageView] at hp
  have hbase : pageBase m = 4 * ((m - 1) / 4) := rfl
  have hsize : pageSize n m = (min 4 (n - pageBase m)).toNat := rfl
  omega

/-- A record is drawn exactly while the cursor is on its page. -/
theorem exists_mem_pageLayout_iff {n m k : ℤ} (hm : 1 ≤ m) (hn : m ≤ n) (hk : 0 ≤ k)
    (hkn : k < n) :
    (∃ p ∈ pageLayout n m, p.1 = k) ↔ pageBase m = 4 * (k / 4) := by
  have hbase : pageBase m = 4 * ((m - 1) / 4) := rfl
  have hsize : pageSize n m = (min 4 (n - pageBase m)).toNat := rfl
  simp only [pageLayout_eq hm hn, (drawOrder_perm _).mem_iff, mem_pageView]
  constructor
  · rintro ⟨p, ⟨hone, hle, hidx, -⟩, rfl⟩
    omega
  · intro h
    refine ⟨(k, (k - pageBase m + 1).toNat, decide (k + 1 = m)), ⟨?_, ?_, ?_, ?_⟩, rfl⟩
    · dsimp only
      omega
    · dsimp only
      omega
    · dsimp only
      omega
    · rw [decide_eq_true_iff]
      dsimp only
      omega

/-! ### What the two functions write -/

theorem recordAt_eq_ok {α : Type} {records : List α} {k : ℤ} {r : α} :
    recordAt records k = .ok r ↔ 0 ≤ k ∧ records[k.toNat]? = some r := by
  unfold recordAt
  split_ifs with hk
  · cases h : records[k.toNat]? <;> simp [hk]
  · simp [hk]

theorem one_le_length {α : Type} {records : List α} (hne : records ≠ []) :
    (1 : ℤ) ≤ records.length := by
  have := List.length_pos_iff.mpr hne
  omega

theorem exists_recordAt {α : Type} {records : List α} {k : ℤ} (hk : 0 ≤ k)
    (hlt : k < records.length) : ∃ r, recordAt records k = .ok r := by
  refine ⟨records[k.toNat], recordAt_eq_ok.mpr ⟨hk, ?_⟩⟩
  exact List.getElem?_eq_getElem _

theorem length_ne_zero_of_recordAt {α : Type} {records : List α} {k : ℤ} {r : α}
    (hr : recordAt records k = .ok r) : records.length ≠ 0 := by
  intro hlen
  obtain ⟨-, hget⟩ := recordAt_eq_ok.mp hr
  simp [List.eq_nil_of_length_eq_zero hlen] at hget

theorem recordAt_error {α : Type} {records : List α} {k : ℤ}
    (hk : ¬ (0 ≤ k ∧ k < records.length)) : recordAt records k = .error .outOfRange := by
  unfold recordAt
  split_ifs with hnonneg
  · rw [List.getElem?_eq_none (by omega)]
  · rfl

/-- `records[k].text`, NULL where there is no such record. -/
def textAt {α : Type} (records : List α) (text : α → Option CString) (k : ℤ) :
    Option CString :=
  if 0 ≤ k then records[k.toNat]?.bind text else none

/-- Row 0 is in front of every list: the rows shown for it start four records
before the first. -/
theorem pageLayout_zero {n : ℤ} (hn : 1 ≤ n) :
    pageLayout n 0 = [(-4, 1, false), (-3, 2, false), (-2, 3, false), (-1, 4, true)] := by
  have hmod : n.tmod 4 = n % 4 := Int.tmod_eq_emod_of_nonneg (by omega)
  rw [pageLayout, hmod, if_neg (by omega), if_neg (by omega), if_neg (by omega)]
  simp

section ShowRecords

variable {α : Type} {title : String} {records : List α} {text : α → Option CString} {m : ℤ}
  {ws : List DispWrite}

/-- The call of `disp_write` that a row of the layout stands for. -/
def DrawsRow (records : List α) (text : α → Option CString) (p : ℤ × ℕ × Bool)
    (w : DispWrite) : Prop :=
  textAt records text p.1 = some w.distring ∧ w.x = 5 ∧ w.line = p.2.1 ∧ w.highlight = p.2.2

theorem drawRecord_eq_ok_iff (p : ℤ × ℕ × Bool) (w : DispWrite) :
    drawRecord records text p = .ok w ↔ DrawsRow records text p w := by
  rw [drawRecord, Lib.bind_eq_ok]
  simp only [recordAt_eq_ok, dispWrite_eq_ok, DrawsRow, textAt]
  constructor
  · rintro ⟨r, ⟨hk, hr⟩, htext, hrest⟩
    simp [hk, hr, htext, hrest]
  · intro h
    split_ifs at h with hk
    · obtain ⟨r, hr, htext⟩ := Option.bind_eq_some_iff.mp h.1
      exact ⟨r, ⟨hk, hr⟩, htext, h.2⟩
    · simp at h

theorem showRecords_of_ne_nil (title : String) (hne : records ≠ []) :
    showRecords title records text m =
      (pageLayout records.length m).mapM (drawRecord records text) := by
  rw [showRecords, if_neg (by simpa using hne)]

theorem showRecords_eq_ok_iff (hne : records ≠ []) :
    showRecords title records text m = .ok ws ↔
      List.Forall₂ (DrawsRow records text) (pageLayout records.length m) ws := by
  rw [showRecords_of_ne_nil title hne, Lib.mapM_eq_ok_iff]
  simp only [drawRecord_eq_ok_iff]

theorem showRecords_nil : showRecords title ([] : List α) text m =
    .ok [literal title 1 false, literal "Please set on mgmt console" 2 false,
      literal "Go back" 3 true] := rfl

theorem showRecords_isPage (h : showRecords title records text m = .ok ws) :
    IsPage ws ∧ ws.map DispWrite.line ⊆ [1, 2, 3, 4] := by
  cases records with
  | nil =>
      rw [showRecords_nil, Except.ok.injEq] at h
      subst h
      refine ⟨⟨by simp [literal], [_, _], _, rfl, rfl, by simp [literal]⟩, by simp [literal]⟩
  | cons r rs =>
      rw [showRecords_eq_ok_iff (by simp)] at h
      obtain ⟨before, line, hlayout, hbefore, hnodup, hlines⟩ :=
        pageLayout_shape (r :: rs).length m
      refine ⟨?_, fun l hl => ?_⟩
      · rw [hlayout] at h hnodup
        exact IsPage.of_forall₂ (h.imp fun _ _ hrow => hrow.2.2) hnodup hbefore rfl
      · rw [Lib.map_of_forall₂ (fun _ _ hrow => hrow.2.2.1) h] at hl
        obtain ⟨p, hp, rfl⟩ := List.mem_map.mp hl
        exact hlines p hp

theorem showRecords_highlights (hne : records ≠ [])
    (h : showRecords title records text m = .ok ws) {r : α}
    (hr : recordAt records (m - 1) = .ok r) :
    ∃ t, text r = some t ∧ (Screen.blank.draw ws).Highlights t := by
  have hpage := (showRecords_isPage h).1
  rw [showRecords_eq_ok_iff hne] at h
  obtain ⟨before, line, hlayout, -⟩ := pageLayout_shape records.length m
  rw [hlayout] at h
  obtain ⟨ws', w, rfl, -, hw⟩ := Lib.forall₂_snoc_left h
  obtain ⟨hnonneg, hget⟩ := recordAt_eq_ok.mp hr
  have htext : text r = some w.distring := by
    have := hw.1
    rwa [textAt, if_pos hnonneg, hget, Option.bind_some] at this
  exact ⟨w.distring, htext, hpage.highlights (by simp) hw.2.2.2⟩

theorem showRecords_complete (title : String) (hne : records ≠ [])
    (htext : ∀ r ∈ records, (text r).isSome) (hm : 1 ≤ m) (hn : m ≤ records.length) :
    ∃ ws, showRecords title records text m = .ok ws := by
  rw [showRecords_of_ne_nil title hne]
  apply Lib.exists_mapM_eq_ok
  intro p hp
  obtain ⟨hnonneg, hlt⟩ := pageLayout_index hm hn hp
  obtain ⟨r, hread⟩ := exists_recordAt hnonneg hlt
  have hr := (recordAt_eq_ok.mp hread).2
  obtain ⟨s, hs⟩ := Option.isSome_iff_exists.mp (htext r (List.mem_of_getElem? hr))
  exact ⟨⟨s, 5, p.2.1, p.2.2⟩,
    (drawRecord_eq_ok_iff _ _).mpr ⟨by simp [textAt, hnonneg, hr, hs], rfl, rfl, rfl⟩⟩

theorem showRecords_zero (title : String) (hne : records ≠ []) :
    showRecords title records text 0 = .error .outOfRange := by
  rw [showRecords_of_ne_nil title hne, pageLayout_zero (one_le_length hne)]
  apply Lib.mapM_error_of_head
  rw [drawRecord, recordAt_error (by omega)]
  rfl

/-! ### The page view -/

/-- What paging is for. The rows drawn are those of the page of the cursor, all
of them records in use; every record is on one page; and on one page only the
highlight moves. -/
structure ShowsPages (records : List α) (text : α → Option CString)
    (shows : ℤ → Exec (List DispWrite)) : Prop where
  view : ∀ m : ℤ, 1 ≤ m → m ≤ records.length →
    ∃ ps : List (ℤ × ℕ × Bool), ps.Perm (pageView records.length m) ∧
      shows m = ps.mapM (drawRecord records text)
  inRange : ∀ m : ℤ, 1 ≤ m → m ≤ records.length → ∀ p ∈ pageView records.length m,
    0 ≤ p.1 ∧ p.1 < records.length
  complete : (∀ r ∈ records, (text r).isSome) → ∀ m : ℤ, 1 ≤ m → m ≤ records.length →
    ∃ ws, shows m = .ok ws
  onePage : ∀ k : ℤ, 0 ≤ k → k < records.length →
    ∃! b, (∃ m : ℤ, 1 ≤ m ∧ m ≤ records.length ∧ pageBase m = b) ∧
      ∀ m : ℤ, 1 ≤ m → m ≤ records.length →
        ((∃ p ∈ pageView records.length m, p.1 = k) ↔ pageBase m = b)
  samePage : ∀ m m' : ℤ, pageBase m = pageBase m' →
    (pageView records.length m).map (fun p => (p.1, p.2.1)) =
      (pageView records.length m').map fun p => (p.1, p.2.1)

theorem pageView_unhighlighted {n m m' : ℤ} (h : pageBase m = pageBase m') :
    (pageView n m).map (fun p => (p.1, p.2.1)) =
      (pageView n m').map fun p => (p.1, p.2.1) := by
  simp [pageView, pageRows, pageSize, h]

theorem showRecords_showsPages (title : String) (records : List α)
    (text : α → Option CString) :
    ShowsPages records text (showRecords title records text) where
  view m hm hn := by
    refine ⟨_, drawOrder_perm _, ?_⟩
    rw [showRecords_of_ne_nil title (by rintro rfl; simp at hn; omega), pageLayout_eq hm hn]
  inRange m hm hn p hp := by
    apply pageLayout_index hm hn
    rwa [pageLayout_eq hm hn, (drawOrder_perm _).mem_iff]
  complete htext m hm hn :=
    showRecords_complete title (by rintro rfl; simp at hn; omega) htext hm hn
  onePage k hk hkn := by
    have hshown (m : ℤ) (hm : 1 ≤ m) (hn : m ≤ records.length) :
        (∃ p ∈ pageView records.length m, p.1 = k) ↔ pageBase m = 4 * (k / 4) := by
      rw [← exists_mem_pageLayout_iff hm hn hk hkn]
      simp only [pageLayout_eq hm hn, (drawOrder_perm _).mem_iff]
    refine ⟨4 * (k / 4), ⟨⟨k + 1, by omega, by omega, by simp [pageBase]⟩, hshown⟩, ?_⟩
    rintro b ⟨⟨m, hm, hn, rfl⟩, hb⟩
    exact (hshown m hm hn).mp ((hb m hm hn).mpr rfl)
  samePage _ _ h := pageView_unhighlighted h

end ShowRecords

/-- **Paging.** The eleven branches of both functions are the page view, for
every number of records and every cursor on them. -/
theorem showChooseCalls_showSetDepartment_showsPages (callRecords : List Callrecord)
    (deptRecords : List Deptrecord) :
    ShowsPages callRecords Callrecord.mancalldesc (showChooseCalls callRecords) ∧
      ShowsPages deptRecords Deptrecord.deptname (showSetDepartment deptRecords) :=
  ⟨showRecords_showsPages _ _ _, showRecords_showsPages _ _ _⟩

end AndonConsole
