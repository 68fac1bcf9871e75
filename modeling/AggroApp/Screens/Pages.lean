import AggroApp.Async.Pool
import AggroApp.Async.Runs
import AggroApp.Model.PaperOnboarding

/-!
# AggroApp — turning the onboarding pages

Swipes and taps move the page, the dots, the texts, the background and the button by
separate assignments, each with an index of its own. For any pages and any gestures
they stay together, so the screen is a counter (`Gesture.target`).

## Results

* `pages_agree` — no gesture traps, and all parts show the page of the counter; the
  button is there exactly on the last of several pages.
* `swiping_on_shows_button_iff` — wherever the user is, swiping on brings the button,
  unless there is only one page.
* `dots_tell_progress_iff` — the filled dots are those before the current one exactly
  as long as taps go to a neighbour.
-/

namespace AggroApp

open Async

variable {items : List OnboardingItemInfo} {c : OnboardingViewController} {i k : ℕ}

-- ---------------------------------------------------------------------------
-- The dots
-- ---------------------------------------------------------------------------

namespace PageContainer

variable {p : PageContainer} {count : ℕ}

/-- There are `count` dots, tagged from 1, and only that of page `i` is selected. -/
structure Shows (count i : ℕ) (p : PageContainer) : Prop where
  length : p.items.length = count
  current : p.currentIndex = i
  tag : ∀ (j : ℕ) item, p.items[j]? = some item → item.tag = j + 1
  selected : ∀ (j : ℕ) item, p.items[j]? = some item → (item.selected = true ↔ j = i)

/-- The filled dots are those before the current one. -/
def TellsProgress (p : PageContainer) : Prop :=
  ∀ (j : ℕ) item, p.items[j]? = some item → (item.fillColor = true ↔ (j : ℤ) < p.currentIndex)

theorem createItems_succ (count : ℕ) :
    ∃ dots, createItems (count + 1) = some dots ∧
      (⟨dots, 0⟩ : PageContainer).Shows (count + 1) 0 ∧
      (⟨dots, 0⟩ : PageContainer).TellsProgress := by
  have hDot : ∀ (j : ℕ) item,
      ((⟨1, true, false⟩ : PageViewItem) ::
        (List.range count).map fun k : ℕ => (⟨k + 2, false, false⟩ : PageViewItem))[j]? =
          some item →
      item.tag = j + 1 ∧ (item.selected = true ↔ j = 0) ∧ item.fillColor = false := by
    intro j item hItem
    cases j with
    | zero =>
      rw [List.getElem?_cons_zero, Option.some.injEq] at hItem
      subst hItem
      exact ⟨rfl, by simp, rfl⟩
    | succ j =>
      rw [List.getElem?_cons_succ, List.getElem?_map, Option.map_eq_some_iff] at hItem
      obtain ⟨k, hRange, rfl⟩ := hItem
      obtain ⟨_, hEq⟩ := List.getElem?_eq_some_iff.mp hRange
      rw [List.getElem_range] at hEq
      subst hEq
      refine ⟨?_, by simp, rfl⟩
      show (j : ℤ) + 2 = ((j + 1 : ℕ) : ℤ) + 1
      omega
  refine ⟨_, rfl, ⟨by simp, rfl, fun j item hItem => (hDot j item hItem).1,
    fun j item hItem => (hDot j item hItem).2.1⟩, fun j item hItem => ?_⟩
  rw [(hDot j item hItem).2.2]
  simp

theorem animationItem_of_lt (hk : k < p.items.length) (selected fillColor : Bool) :
    p.animationItem k selected fillColor =
      some { p with items := p.items.modify k (.animationSelected selected fillColor) } := by
  rw [animationItem, if_pos ⟨by omega, by omega⟩, Int.toNat_natCast]

/-- The dots after the selection has gone from `i` to `k`. -/
def moved (items : List PageViewItem) (i k : ℕ) : List PageViewItem :=
  (items.modify k (.animationSelected true false)).modify i
    (.animationSelected false (decide (i < k)))

/-- What the move does to each dot. -/
theorem moved_cases {items : List PageViewItem} {j : ℕ} {item : PageViewItem}
    (h : (moved items i k)[j]? = some item) : ∃ old, items[j]? = some old ∧
      item = if j = i then
          ⟨old.tag, false, decide (i < k)⟩
        else if j = k then
          ⟨old.tag, true, false⟩
        else
          old := by
  rcases getElem?_modify_cases h with ⟨rfl, shown, hShown, rfl⟩ | ⟨hLeft, hShown⟩
  · rcases getElem?_modify_cases hShown with ⟨-, old, hOld, rfl⟩ | ⟨-, hOld⟩
    · exact ⟨old, hOld, (if_pos rfl).symm⟩
    · exact ⟨shown, hOld, (if_pos rfl).symm⟩
  · rcases getElem?_modify_cases hShown with ⟨rfl, old, hOld, rfl⟩ | ⟨hNew, hOld⟩
    · exact ⟨old, hOld, by rw [if_neg hLeft, if_pos rfl]; rfl⟩
    · exact ⟨item, hOld, by rw [if_neg hLeft, if_neg hNew]⟩

theorem moved_of_ne {items : List PageViewItem} {j : ℕ} (hi : j ≠ i) (hk : j ≠ k) :
    (moved items i k)[j]? = items[j]? := by
  rw [moved, List.getElem?_modify_ne _ _ (Ne.symm hi), List.getElem?_modify_ne _ _ (Ne.symm hk)]

theorem currenteIndex_of_ne (h : p.Shows count i) (hi : i < count) (hk : k < count)
    (hNe : k ≠ i) : p.currenteIndex k = some ⟨moved p.items i k, k⟩ := by
  have hNew := animationItem_of_lt (p := p) (h.length ▸ hk) true false
  have hLeft : ∀ fillColor,
      ({ p with items := p.items.modify k (.animationSelected true false) } :
        PageContainer).animationItem i false fillColor = _ :=
    animationItem_of_lt (by rwa [List.length_modify, h.length]) false
  have hFar : decide ((k : ℤ) > i) = decide (i < k) := by simp
  rw [currenteIndex, h.current, if_neg (by omega), hNew, Option.bind_some, hLeft, hFar]
  rfl

theorem Shows.moved (h : p.Shows count i) (hNe : k ≠ i) :
    (⟨moved p.items i k, k⟩ : PageContainer).Shows count k := by
  refine ⟨?_, rfl, fun j item hItem => ?_, fun j item hItem => ?_⟩
  · rw [PageContainer.moved, List.length_modify, List.length_modify, h.length]
  · obtain ⟨old, hOld, rfl⟩ := moved_cases hItem
    have hTag : old.tag = j + 1 := h.tag j old hOld
    split_ifs <;> exact hTag
  · obtain ⟨old, hOld, rfl⟩ := moved_cases hItem
    have hSelected : old.selected = true ↔ j = i := h.selected j old hOld
    split_ifs with hLeft hNew
    · simp [hLeft, Ne.symm hNe]
    · simp [hNew]
    · simp [hSelected, hLeft, hNew]

/-- Only the dot that is left is marked, so the dots passed over on the way are wrong. -/
theorem tellsProgress_moved (h : p.Shows count i) (hi : i < count) (hk : k < count)
    (hTells : p.TellsProgress) :
    (⟨moved p.items i k, k⟩ : PageContainer).TellsProgress ↔ k ≤ i + 1 ∧ i ≤ k + 1 := by
  have hFilled : ∀ (j : ℕ) old, p.items[j]? = some old → (old.fillColor = true ↔ j < i) := by
    intro j old hOld
    have hTells := hTells j old hOld
    rwa [h.current, Int.ofNat_lt] at hTells
  constructor
  · intro hAfter
    -- the neighbour of the dot that is left, or of the one that is reached
    have hBetween : ∀ j : ℕ, j < count → j ≠ i → j ≠ k → (j < i ↔ j < k) := by
      intro j hj hjLeft hjNew
      obtain ⟨old, hOld⟩ : ∃ old, p.items[j]? = some old :=
        ⟨_, List.getElem?_eq_getElem (h.length ▸ hj)⟩
      have hSame := hAfter j old ((moved_of_ne hjLeft hjNew).trans hOld)
      rw [Int.ofNat_lt] at hSame
      exact (hFilled j old hOld).symm.trans hSame
    constructor
    · by_contra hFar
      have := hBetween (i + 1) (by omega) (by omega) (by omega)
      omega
    · by_contra hFar
      have := hBetween (k + 1) (by omega) (by omega) (by omega)
      omega
  · rintro ⟨hUp, hDown⟩ j item hItem
    obtain ⟨old, hOld, rfl⟩ := moved_cases hItem
    have hOldFilled := hFilled j old hOld
    rw [Int.ofNat_lt]
    split_ifs with hLeft hNew
    · simp [hLeft]
    · simp [hNew]
    · rw [hOldFilled]
      omega

end PageContainer

-- ---------------------------------------------------------------------------
-- The screen is a counter
-- ---------------------------------------------------------------------------

namespace OnboardingViewController

/-- All parts of the screen show page `i`. -/
structure OnShow (items : List OnboardingItemInfo) (i : ℕ) (c : OnboardingViewController) :
    Prop where
  itemsInfo : c.onboardingView.itemsInfo = items
  currentIndex : c.onboardingView.currentIndex = i
  pageView : c.onboardingView.pageView.Shows items.length i
  currentItem : items[i]? = some c.onboardingView.currentItem
  /-- Once the circles have ended. -/
  background : c.onboardingView.fillAnimationView.settled = c.onboardingView.currentItem.color
  getStartedButton : c.getStartedButton = true ↔ i + 1 = items.length ∧ 2 ≤ items.length

/-- The page that a gesture leads to, from page `i` of `count`. -/
def Gesture.target (count i : ℕ) : Gesture → ℕ
  | .swipeLeft => if i + 1 < count then i + 1 else i
  | .swipeRight => i - 1
  | .tap k => if k < count then k else i
  | .animationDidStop => i

theorem OnShow.lt (h : OnShow items i c) : i < items.length :=
  (List.getElem?_eq_some_iff.mp h.currentItem).1

theorem load_onShow (hItems : items ≠ []) :
    ∃ c₀, load items = some c₀ ∧ OnShow items 0 c₀ ∧
      c₀.onboardingView.pageView.TellsProgress := by
  cases items with
  | nil => exact absurd rfl hItems
  | cons first rest =>
    obtain ⟨dots, hDots, hShows, hTells⟩ := PageContainer.createItems_succ rest.length
    refine ⟨⟨⟨first :: rest, 0, ⟨first.color, []⟩, ⟨dots, 0⟩, first⟩, false⟩, ?_,
      ⟨rfl, rfl, hShows, rfl, rfl, ?_⟩, hTells⟩
    · rw [load, List.length_cons, hDots]
      rfl
    · simp only [List.length_cons, Bool.false_eq_true, false_iff]
      omega

/-- Every page but the current one can be turned to, and nothing else happens. -/
theorem OnShow.turn (h : OnShow items i c) (hk : k < items.length) (hNe : k ≠ i) :
    ∃ c', c.currentIndex k = some c' ∧ OnShow items k c' ∧
      c'.onboardingWillTransitonToIndex k = c' ∧
      (c.onboardingView.pageView.TellsProgress →
        (c'.onboardingView.pageView.TellsProgress ↔ k ≤ i + 1 ∧ i ≤ k + 1)) := by
  have hCount : c.onboardingView.itemsCount = items.length := by
    rw [PaperOnboarding.itemsCount, h.itemsInfo]
  have hInfo : c.onboardingView.itemInfo k = some items[k] := by
    rw [PaperOnboarding.itemInfo, if_pos (by omega), h.itemsInfo, Int.toNat_natCast,
      List.getElem?_eq_getElem hk]
  have hDots := PageContainer.currenteIndex_of_ne h.pageView h.lt hk hNe
  have hTurn : c.currentIndex k = some { c.onboardingWillTransitonToIndex k with
      onboardingView := { c.onboardingView with
        currentIndex := k
        fillAnimationView := c.onboardingView.fillAnimationView.fillAnimation items[k].color
        pageView := ⟨PageContainer.moved c.onboardingView.pageView.items i k, k⟩
        currentItem := items[k] } } := by
    simp only [OnboardingViewController.currentIndex, hCount, hInfo, hDots, Option.bind_some,
      Option.map_some]
    rw [if_pos ⟨by omega, by omega⟩]
  refine ⟨_, hTurn, ⟨h.itemsInfo, rfl, h.pageView.moved hNe, List.getElem?_eq_getElem hk,
    FillAnimationView.settled_fillAnimation _ _, ?_⟩, rfl,
    PageContainer.tellsProgress_moved h.pageView h.lt hk⟩
  have := h.lt
  simp only [onboardingWillTransitonToIndex, shouldShowGetStartedButton, hCount,
    decide_eq_true_eq]
  omega

/-- A swipe beyond either end is ignored. -/
theorem OnShow.currentIndex_outside (h : OnShow items i c) {index : ℤ}
    (hOut : index < 0 ∨ items.length ≤ index) : c.currentIndex index = some c := by
  have hCount : c.onboardingView.itemsCount = items.length := by
    rw [PaperOnboarding.itemsCount, h.itemsInfo]
  simp only [OnboardingViewController.currentIndex, hCount]
  rw [if_neg (by omega)]

/-- Either the counter stays where it is, or it goes to another page. -/
theorem OnShow.gesture (h : OnShow items i c) (g : Gesture) :
    ∃ c', c.handle g = some c' ∧ OnShow items (g.target items.length i) c' ∧
      (c.onboardingView.pageView.TellsProgress →
        (c'.onboardingView.pageView.TellsProgress ↔
          g.target items.length i ≤ i + 1 ∧ i ≤ g.target items.length i + 1)) := by
  have hLt := h.lt
  have hStays : c.onboardingView.pageView.TellsProgress →
      (c.onboardingView.pageView.TellsProgress ↔ i ≤ i + 1 ∧ i ≤ i + 1) :=
    fun hTells => ⟨fun _ => ⟨by omega, by omega⟩, fun _ => hTells⟩
  cases g with
  | swipeLeft =>
    have hHandle : c.handle .swipeLeft = c.currentIndex ((i + 1 : ℕ) : ℤ) := by
      rw [OnboardingViewController.handle, h.currentIndex, Int.natCast_succ]
    by_cases hLast : i + 1 < items.length
    · obtain ⟨c', hTurn, hShow, -, hTells⟩ := h.turn hLast (by omega)
      rw [Gesture.target, if_pos hLast]
      exact ⟨c', hHandle.trans hTurn, hShow, hTells⟩
    · rw [Gesture.target, if_neg hLast]
      exact ⟨c, hHandle.trans (h.currentIndex_outside (by omega)), h, hStays⟩
  | swipeRight =>
    have hHandle : c.handle .swipeRight = c.currentIndex ((i : ℤ) - 1) := by
      rw [OnboardingViewController.handle, h.currentIndex]
    rw [Gesture.target]
    cases i with
    | zero => exact ⟨c, hHandle.trans (h.currentIndex_outside (by omega)), h, hStays⟩
    | succ i =>
      obtain ⟨c', hTurn, hShow, -, hTells⟩ := h.turn (k := i) (by omega) (by omega)
      rw [Int.natCast_succ, Int.add_sub_cancel] at hHandle
      exact ⟨c', hHandle.trans hTurn, hShow, hTells⟩
  | tap k =>
    by_cases hDot : k < items.length
    · have hItem := List.getElem?_eq_getElem (h.pageView.length.symm ▸ hDot)
      have hTag := h.pageView.tag k _ hItem
      rw [Gesture.target, if_pos hDot, OnboardingViewController.handle, hItem]
      simp only [hTag, Int.add_sub_cancel, h.currentIndex]
      by_cases hSame : k = i
      · rw [if_pos (by omega), hSame]
        exact ⟨c, rfl, h, hStays⟩
      · rw [if_neg (by omega)]
        obtain ⟨c', hTurn, hShow, hAgain, hTells⟩ := h.turn hDot hSame
        refine ⟨c', ?_, hShow, hTells⟩
        rw [hTurn, Option.map_some, hAgain]
    · have hItem := List.getElem?_eq_none (h.pageView.length.symm ▸ Nat.le_of_not_lt hDot)
      rw [Gesture.target, if_neg hDot, OnboardingViewController.handle, hItem]
      exact ⟨c, rfl, h, hStays⟩
  | animationDidStop =>
    exact ⟨_, rfl, ⟨h.itemsInfo, h.currentIndex, h.pageView, h.currentItem,
      (FillAnimationView.settled_animationDidStop _).trans h.background, h.getStartedButton⟩,
      hStays⟩

theorem OnShow.gestures (h : OnShow items i c) (gs : List Gesture) :
    ∃ c', run handle c gs = some c' ∧
      OnShow items (gs.foldl (Gesture.target items.length) i) c' :=
  run_total (R := fun c i => OnShow items i c) (fun _ _ g hShow =>
    have ⟨c', hHandle, hShow', _⟩ := hShow.gesture g
    ⟨c', hHandle, hShow'⟩) h gs

/-- Swiping on reaches the last page and stays there. -/
theorem swiping_on {count : ℕ} (hi : i < count) (m : ℕ) :
    (List.replicate m Gesture.swipeLeft).foldl (Gesture.target count) i =
      min (i + m) (count - 1) := by
  induction m generalizing i with
  | zero =>
    rw [List.replicate_zero, List.foldl_nil]
    omega
  | succ m ih =>
    rw [List.replicate_succ, List.foldl_cons, Gesture.target]
    split_ifs with hLast
    · rw [ih hLast]
      omega
    · rw [ih hi]
      omega

-- ---------------------------------------------------------------------------
-- The results
-- ---------------------------------------------------------------------------

/--
**The parts of the screen agree.** For any pages and any gestures nothing traps, and
page, dots, texts, background and button are those of one page, the one that the
gestures lead to.
-/
theorem pages_agree (hItems : items ≠ []) :
    ∃ c₀, load items = some c₀ ∧ ∀ gs, ∃ c, run handle c₀ gs = some c ∧
      OnShow items (gs.foldl (Gesture.target items.length) 0) c := by
  obtain ⟨c₀, hLoad, hShow, -⟩ := load_onShow hItems
  exact ⟨c₀, hLoad, hShow.gestures⟩

theorem onboardingItems_agree :
    ∃ c₀, load onboardingItems = some c₀ ∧ ∀ gs, ∃ c, run handle c₀ gs = some c ∧
      OnShow onboardingItems (gs.foldl (Gesture.target onboardingItems.length) 0) c :=
  pages_agree (by decide)

/--
**The button can be reached.** From any page that gestures have led to, swiping on
once for each page brings the button, if and only if there are several pages: with a
single one the screen is already there, and nothing ever shows the button.
-/
theorem swiping_on_shows_button_iff (hItems : items ≠ []) :
    ∃ c₀, load items = some c₀ ∧ ∀ gs c, run handle c₀ gs = some c →
      ((∃ c', run handle c (List.replicate items.length .swipeLeft) = some c' ∧
        c'.getStartedButton = true) ↔ 2 ≤ items.length) := by
  obtain ⟨c₀, hLoad, hShow₀, -⟩ := load_onShow hItems
  refine ⟨c₀, hLoad, fun gs c hRun => ?_⟩
  obtain ⟨c₁, hReached, hShow⟩ := hShow₀.gestures gs
  obtain rfl := Option.some.inj (hRun.symm.trans hReached)
  obtain ⟨c₂, hOn, hLast⟩ := hShow.gestures (List.replicate items.length .swipeLeft)
  rw [swiping_on hShow.lt] at hLast
  constructor
  · rintro ⟨c', hOn', hButton⟩
    obtain rfl := Option.some.inj (hOn.symm.trans hOn')
    exact (hLast.getStartedButton.mp hButton).2
  · intro hSeveral
    exact ⟨c₂, hOn, hLast.getStartedButton.mpr ⟨by omega, hSeveral⟩⟩

theorem onboardingItems_show_button :
    ∃ c₀, load onboardingItems = some c₀ ∧ ∀ gs c, run handle c₀ gs = some c →
      ((∃ c', run handle c (List.replicate onboardingItems.length .swipeLeft) = some c' ∧
        c'.getStartedButton = true) ↔ 2 ≤ onboardingItems.length) :=
  swiping_on_shows_button_iff (by decide)

/-- A tap goes to a dot beside that of the current page. -/
def NextTo (c : OnboardingViewController) : Gesture → Prop
  | .tap k => k < c.onboardingView.itemsCount →
      k ≤ c.onboardingView.currentIndex + 1 ∧ c.onboardingView.currentIndex ≤ k + 1
  | .swipeLeft | .swipeRight | .animationDidStop => True

theorem OnShow.nextTo_iff (h : OnShow items i c) (g : Gesture) :
    NextTo c g ↔ g.target items.length i ≤ i + 1 ∧ i ≤ g.target items.length i + 1 := by
  have hLt := h.lt
  cases g with
  | swipeLeft =>
    rw [NextTo, Gesture.target, true_iff]
    split_ifs <;> omega
  | swipeRight =>
    rw [NextTo, Gesture.target, true_iff]
    omega
  | tap k =>
    rw [NextTo, Gesture.target, PaperOnboarding.itemsCount, h.itemsInfo, h.currentIndex]
    split_ifs <;> omega
  | animationDidStop =>
    rw [NextTo, Gesture.target, true_iff]
    omega

/--
**The filled dots.** They are those before the current one in every state exactly if
every tap goes to a dot beside the current one: a page that is passed over is not
marked.
-/
theorem dots_tell_progress_iff (hItems : items ≠ []) :
    ∃ c₀, load items = some c₀ ∧ ∀ gs,
      (Always handle (fun c => c.onboardingView.pageView.TellsProgress) c₀ gs ↔
        Along handle NextTo c₀ gs) := by
  obtain ⟨c₀, hLoad, hShow₀, hTells₀⟩ := load_onShow hItems
  refine ⟨c₀, hLoad, fun gs => always_iff_along (I := fun c => ∃ i, OnShow items i c)
    ?_ ?_ ⟨0, hShow₀⟩ hTells₀⟩
  · rintro c g c' ⟨i, hShow⟩ hHandle
    obtain ⟨c₁, hHandle₁, hShow', -⟩ := hShow.gesture g
    obtain rfl := Option.some.inj (hHandle.symm.trans hHandle₁)
    exact ⟨_, hShow'⟩
  · rintro c g c' ⟨i, hShow⟩ hTells hHandle
    obtain ⟨c₁, hHandle₁, -, hTells'⟩ := hShow.gesture g
    obtain rfl := Option.some.inj (hHandle.symm.trans hHandle₁)
    exact (hTells' hTells).trans (hShow.nextTo_iff g).symm

theorem onboardingItems_tell_progress :
    ∃ c₀, load onboardingItems = some c₀ ∧ ∀ gs,
      (Always handle (fun c => c.onboardingView.pageView.TellsProgress) c₀ gs ↔
        Along handle NextTo c₀ gs) :=
  dots_tell_progress_iff (by decide)

/-- A tap on the third dot leaves the second one clear. -/
example : ((load onboardingItems).bind fun c => c.handle (.tap 2)).map
    (fun c => c.onboardingView.pageView.items.map PageViewItem.fillColor) =
      some [true, false, false] := by
  decide

end OnboardingViewController

end AggroApp
