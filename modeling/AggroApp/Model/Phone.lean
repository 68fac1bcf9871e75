import AggroApp.Model.Display
import AggroApp.Model.WebCache

/-!
# AggroApp — the phone

A device with its image views, and the pod that loads their pictures. The home screen
adds a new image view for each picture, an edit screen has one from the start. What
the screens ask of the image views is asked on the main thread, as part of the event;
the rest of the pod goes on by itself.
-/

namespace AggroApp

/-- The image views: those of the home screen in the order in which they were added,
and the one of each edit screen. -/
inductive PictureView
  | home (index : ℕ)
  | edit (screen : ℕ)
  deriving DecidableEq, Repr

abbrev ImageEvent := WebCache.Event PictureView UIImage

-- ---------------------------------------------------------------------------
-- What the screens ask for
-- ---------------------------------------------------------------------------

def HomeLayer.picture? : HomeLayer → Option String
  | .profileImageView profileImageUrl => some profileImageUrl
  | _ => none

namespace HomeView

/-- The URLs of the image views, the oldest first. -/
def pictures (home : HomeView) : List String := (home.layers.filterMap HomeLayer.picture?).reverse

/-- The image views that no gradient covers, from the front to the back. -/
def uncoveredViews (home : HomeView) : List PictureView :=
  (List.range (home.uncovered.filterMap HomeLayer.picture?).length).map fun k =>
    .home (home.pictures.length - 1 - k)

/-- `sd_setImage(with:)` of `configureProfileImage`; the next image view has this index. -/
def loads (index : ℕ) : List ViewCall → List ImageEvent
  | [] => []
  | .addProfileImageView profileImageUrl :: calls =>
    .setImageWithURL (.home index) profileImageUrl :: loads (index + 1) calls
  | _ :: calls => loads index calls

end HomeView

/-- The edit screens assign `selectedImage`, or the picture of the user they fetched. -/
def App.editLoads (parses : URLParser) (a : App) : App.Event → List ImageEvent
  | .imagePickerController image _ =>
    match image, a.picking with
    | some image, some s => [.setImage (.edit s) (some image)]
    | _, _ => []
  | .deliver i =>
    match a.net.tasks[i]? with
    | some (.answered _ (.fetched (.edit s) user)) =>
      if parses user.profileImageUrl then
        [.setImageWithURL (.edit s) user.profileImageUrl]
      else
        []
    | _ => []
  | _ => []

def Device.loads (parses : URLParser) (d : Device) : Device.Event → List ImageEvent
  | .app event => HomeView.loads d.home.pictures.length (d.app.viewCalls parses event) ++
      d.app.editLoads parses event
  | _ => []

-- ---------------------------------------------------------------------------
-- Phones
-- ---------------------------------------------------------------------------

structure Phone where
  device : Device
  images : WebCache PictureView UIImage

namespace Phone

inductive Event
  | device (event : Device.Event)
  /-- A step of the pod's own. -/
  | images (event : ImageEvent)

def step (parses : URLParser) (p : Phone) : Event → Option Phone
  -- the disk cache is all that is left of the images
  | .device (.app .launch) => (p.device.step parses (.app .launch)).map fun device =>
      ⟨device, .launched p.images.diskCache⟩
  | .device event => (p.device.step parses event).bind fun device =>
      (Async.run WebCache.step p.images (p.device.loads parses event)).map fun images =>
        ⟨device, images⟩
  | .images event =>
    if event.view?.isNone then
      (p.images.step event).map fun images => { p with images }
    else
      none

def start (backend : Backend) (diskCache : String → Option UIImage) : Phone :=
  ⟨.start backend, .launched diskCache⟩

/-- The picture that is seen on the home screen: an image view without an image is
transparent, so the one behind it is seen until it has one. -/
def profileImage (p : Phone) : Option UIImage :=
  p.device.home.uncoveredViews.findSome? fun v => (p.images.views v).image

variable {parses : URLParser} {p p' : Phone}

/-- What an event of the device does to the images. -/
theorem step_device {e : Device.Event} (h : p.step parses (.device e) = some p') :
    p.device.step parses e = some p'.device ∧
      ((e = .app .launch ∧ p'.images = .launched p.images.diskCache) ∨
        (e ≠ .app .launch ∧
          Async.run WebCache.step p.images (p.device.loads parses e) = some p'.images)) := by
  unfold step at h
  split at h
  · rename_i hEvent
    obtain rfl := Event.device.inj hEvent
    obtain ⟨device, hStep, rfl⟩ := Option.map_eq_some_iff.mp h
    exact ⟨hStep, Or.inl ⟨rfl, rfl⟩⟩
  · rename_i event hOther hEvent
    obtain rfl := Event.device.inj hEvent
    obtain ⟨device, hStep, hImages⟩ := Option.bind_eq_some_iff.mp h
    obtain ⟨images, hRun, rfl⟩ := Option.map_eq_some_iff.mp hImages
    exact ⟨hStep, Or.inr ⟨fun hLaunch => hOther (hLaunch ▸ rfl), hRun⟩⟩
  · rename_i hEvent
    exact absurd hEvent (by simp)

theorem step_images {e : ImageEvent} (h : p.step parses (.images e) = some p') :
    e.view? = none ∧ p'.device = p.device ∧ p.images.step e = some p'.images := by
  obtain ⟨hView, hEq⟩ := Option.ite_none_right_eq_some.mp h
  obtain ⟨images, hStep, rfl⟩ := Option.map_eq_some_iff.mp hEq
  exact ⟨Option.isNone_iff_eq_none.mp hView, rfl, hStep⟩

/-- The event of the device, if it is one. -/
def Event.device? : Event → Option Device.Event
  | .device event => some event
  | .images _ => none

/-- The images do not get in the way of the device. -/
theorem run_device {es : List Event} (h : Async.run (Phone.step parses) p es = some p') :
    Async.run (Device.step parses) p.device (es.filterMap Event.device?) = some p'.device := by
  induction es generalizing p with
  | nil =>
    rw [Async.run_nil, Option.some.injEq] at h
    exact h ▸ Async.run_nil p.device
  | cons e es ih =>
    obtain ⟨q, hStep, hRest⟩ := Async.run_cons_some h
    cases e with
    | device event =>
      obtain ⟨hDevice, -⟩ := step_device hStep
      exact Async.run_cons hDevice (ih hRest)
    | images event =>
      obtain ⟨-, hSame, -⟩ := step_images hStep
      exact hSame ▸ ih hRest

end Phone

end AggroApp
