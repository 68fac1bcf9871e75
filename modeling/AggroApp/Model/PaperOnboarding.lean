import Mathlib.Data.Int.Basic
import Mathlib.Data.List.Basic

/-!
# AggroApp — the onboarding pages

The onboarding screen (`Controller/OnboardingViewController.swift` with its view
model) and the pages that it shows, from the pod `paper-onboarding`:
`PaperOnboarding.swift`, `PageView.swift`, `PageContainer.swift`, `PageViewItem.swift`,
`OnboardingContentView.swift` and `FillAnimationView.swift`.

A page is shown by four parts that are moved one after the other: the dots of the
page control, the texts, the background, which fills with a circle in the colour of
the page, and the button that ends the onboarding. The circles take equally long, so
they end in the order in which they were started.

`none` is a trap: an index out of range, or no pages at all.
-/

namespace AggroApp

inductive PageColor
  | systemPurple
  | systemPink
  | systemBlue
  deriving DecidableEq, Repr

structure OnboardingItemInfo where
  title : String
  description : String
  color : PageColor
  deriving DecidableEq, Repr

/-- The pages of `configureOnboardingDataSource`. -/
def onboardingItems : List OnboardingItemInfo :=
  [⟨"Metrics", "Extract valuable insights and come up with data driven product initiatives " ++
      "to help grow your business", .systemPurple⟩,
   ⟨"Get notified", "Get notified when important stuff is happening", .systemPink⟩,
   ⟨"Dashboard", "Everything you need all in one place", .systemBlue⟩]

/-- `OnboardingViewModel.shouldShowGetStartedButton(forIndex:)`. -/
def shouldShowGetStartedButton (itemCount : ℕ) (index : ℤ) : Bool := index = itemCount - 1

-- ---------------------------------------------------------------------------
-- The page control
-- ---------------------------------------------------------------------------

/-- A dot: large with its picture if it is `selected`, and filled or clear. -/
structure PageViewItem where
  tag : ℤ
  selected : Bool
  fillColor : Bool
  deriving DecidableEq, Repr

def PageViewItem.animationSelected (selected fillColor : Bool) (item : PageViewItem) :
    PageViewItem :=
  { item with selected, fillColor }

structure PageContainer where
  items : List PageViewItem
  currentIndex : ℤ
  deriving DecidableEq, Repr

namespace PageContainer

/-- `createItems`: the first dot is made apart, and the range of the others must not
be upside down. -/
def createItems : ℕ → Option (List PageViewItem)
  | 0 => none
  | count + 1 =>
    some (⟨1, true, false⟩ :: (List.range count).map fun k : ℕ => ⟨k + 2, false, false⟩)

/-- `animationItem(items[index], ...)`. -/
def animationItem (p : PageContainer) (index : ℤ) (selected fillColor : Bool) :
    Option PageContainer :=
  if 0 ≤ index ∧ index < p.items.length then
    some { p with items := p.items.modify index.toNat (.animationSelected selected fillColor) }
  else
    none

/-- A dot that is left for a later page is filled. -/
def currenteIndex (p : PageContainer) (index : ℤ) : Option PageContainer :=
  if index = p.currentIndex then
    some p
  else
    (p.animationItem index true false).bind fun shown =>
      (shown.animationItem p.currentIndex false (decide (index > p.currentIndex))).map
        fun moved => { moved with currentIndex := index }

end PageContainer

-- ---------------------------------------------------------------------------
-- The background
-- ---------------------------------------------------------------------------

structure FillAnimationView where
  backgroundColor : PageColor
  /-- The circles that are growing, the oldest one first. -/
  circles : List PageColor
  deriving DecidableEq, Repr

namespace FillAnimationView

def fillAnimation (view : FillAnimationView) (color : PageColor) : FillAnimationView :=
  { view with circles := view.circles ++ [color] }

/-- The oldest circle covers the view, and gives way to a background of its colour. -/
def animationDidStop (view : FillAnimationView) : FillAnimationView :=
  match view.circles with
  | [] => view
  | color :: circles => ⟨color, circles⟩

/-- The background when all circles have ended. -/
def settled (view : FillAnimationView) : PageColor := view.circles.getLastD view.backgroundColor

@[simp] theorem settled_fillAnimation (view : FillAnimationView) (color : PageColor) :
    (view.fillAnimation color).settled = color := by
  simp [settled, fillAnimation]

@[simp] theorem settled_animationDidStop (view : FillAnimationView) :
    view.animationDidStop.settled = view.settled := by
  obtain ⟨backgroundColor, circles⟩ := view
  cases circles with
  | nil => rfl
  | cons color circles => cases circles <;> rfl

end FillAnimationView

-- ---------------------------------------------------------------------------
-- The pages
-- ---------------------------------------------------------------------------

structure PaperOnboarding where
  itemsInfo : List OnboardingItemInfo
  currentIndex : ℤ
  fillAnimationView : FillAnimationView
  pageView : PageContainer
  /-- What `OnboardingContentView.currentItem` was made of. -/
  currentItem : OnboardingItemInfo
  deriving DecidableEq, Repr

/-- `itemsCount`. -/
def PaperOnboarding.itemsCount (view : PaperOnboarding) : ℕ := view.itemsInfo.length

/-- `itemsInfo[index]`. -/
def PaperOnboarding.itemInfo (view : PaperOnboarding) (index : ℤ) : Option OnboardingItemInfo :=
  if 0 ≤ index then view.itemsInfo[index.toNat]? else none

structure OnboardingViewController where
  onboardingView : PaperOnboarding
  /-- `getStartedButton.alpha` is 1; a button with alpha 0 takes no touches. -/
  getStartedButton : Bool
  deriving DecidableEq, Repr

namespace OnboardingViewController

/-- `configureUI` and `configureOnboardingDataSource`. -/
def load (items : List OnboardingItemInfo) : Option OnboardingViewController :=
  match items with
  | [] => none
  | first :: _ =>
    (PageContainer.createItems items.length).map fun dots =>
      ⟨⟨items, 0, ⟨first.color, []⟩, ⟨dots, 0⟩, first⟩, false⟩

def onboardingWillTransitonToIndex (c : OnboardingViewController) (index : ℤ) :
    OnboardingViewController :=
  { c with getStartedButton := shouldShowGetStartedButton c.onboardingView.itemsCount index }

/-- `PaperOnboarding.currentIndex(_:animated:)`, with its delegate. -/
def currentIndex (c : OnboardingViewController) (index : ℤ) : Option OnboardingViewController :=
  let view := c.onboardingView
  if 0 ≤ index ∧ index < view.itemsCount then
    (view.itemInfo index).bind fun info =>
      (view.pageView.currenteIndex index).map fun pageView =>
        { c.onboardingWillTransitonToIndex index with
          onboardingView := { view with
            currentIndex := index
            fillAnimationView := view.fillAnimationView.fillAnimation info.color
            pageView := pageView
            currentItem := info } }
  else
    -- `onboardingWillTransitonToLeaving` does nothing
    some c

inductive Gesture
  | swipeLeft
  | swipeRight
  /-- The touch hits dot `k`, or none if there is no such dot. -/
  | tap (k : ℕ)
  | animationDidStop
  deriving DecidableEq, Repr

def handle (c : OnboardingViewController) : Gesture → Option OnboardingViewController
  | .swipeLeft => c.currentIndex (c.onboardingView.currentIndex + 1)
  | .swipeRight => c.currentIndex (c.onboardingView.currentIndex - 1)
  | .tap k =>
    match c.onboardingView.pageView.items[k]? with
    | none => some c
    | some pageItem =>
      let index := pageItem.tag - 1
      if index = c.onboardingView.currentIndex then
        some c
      else
        (c.currentIndex index).map fun c' => c'.onboardingWillTransitonToIndex index
  | .animationDidStop =>
    some { c with
      onboardingView.fillAnimationView := c.onboardingView.fillAnimationView.animationDidStop }

end OnboardingViewController

end AggroApp
