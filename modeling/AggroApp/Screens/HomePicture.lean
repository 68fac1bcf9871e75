import AggroApp.Model.Phone
import AggroApp.Screens.Arrivals
import AggroApp.Screens.Displayed

/-!
# AggroApp — the picture on the home screen

`Screens/Displayed.lean` says which image view is in front, and `Screens/ImageViews.lean`
and `Screens/Arrivals.lean` what an image view shows. Together: whose picture is seen on
the home screen, while pictures are loaded, shared, dropped and cancelled on other
threads.

## Results

* `front_picture_is_users`  — the image view in front shows nothing yet, or the picture
  of the home screen's user.
* `rested_home_shows_user` — when nothing is on its way any more, the picture that is
  seen is that of the home screen's user.
-/

namespace AggroApp

open Async

variable {parses : URLParser} {S : String → UIImage → Prop} {R : String → Prop}

-- ---------------------------------------------------------------------------
-- The pictures
-- ---------------------------------------------------------------------------

namespace HomeView

theorem profileImage_eq (home : HomeView) :
    home.profileImage = home.uncovered.findSome? HomeLayer.picture? := rfl

/-- The picture in front is the one that was added last. -/
theorem pictures_getLast {home : HomeView} {url : String} (h : home.profileImage = some url) :
    home.pictures[home.pictures.length - 1]? = some url ∧
      ∃ rest, home.uncoveredViews = .home (home.pictures.length - 1) :: rest := by
  rw [profileImage_eq, ← List.head?_filterMap] at h
  obtain ⟨older, hUncovered⟩ := List.head?_eq_some_iff.mp h
  constructor
  · have hPrefix : home.uncovered <+: home.layers := List.takeWhile_prefix _
    obtain ⟨hidden, hLayers⟩ := hPrefix
    rw [← List.getLast?_eq_getElem?, pictures, List.getLast?_reverse, ← hLayers,
      List.filterMap_append, hUncovered]
    rfl
  · rw [uncoveredViews, hUncovered, List.length_cons, List.range_succ_eq_map]
    exact ⟨_, rfl⟩

/-- The label is no picture, wherever it is. -/
theorem filterMap_erase_label (layers : List HomeLayer) :
    (layers.erase .welcomeLabel).filterMap HomeLayer.picture? =
      layers.filterMap HomeLayer.picture? := by
  induction layers with
  | nil => rfl
  | cons layer layers ih =>
    by_cases hLabel : layer = .welcomeLabel
    · rw [hLabel, List.erase_cons_head, List.filterMap_cons_none rfl]
    · rw [List.erase_cons_tail (by simpa using hLabel), List.filterMap_cons,
        List.filterMap_cons, ih]

theorem pictures_draw (home : HomeView) (call : ViewCall) :
    (home.draw call).pictures = home.pictures ++
      match call with
      | .addProfileImageView profileImageUrl => [profileImageUrl]
      | _ => [] := by
  cases call with
  | showLoader | setWelcomeLabel => exact (List.append_nil _).symm
  | configureGradientBackground =>
    rw [pictures, draw, List.filterMap_cons_none rfl]
    exact (List.append_nil _).symm
  | addWelcomeLabel =>
    rw [pictures, draw, List.filterMap_cons_none rfl, filterMap_erase_label]
    exact (List.append_nil _).symm
  | addProfileImageView url =>
    have hPicture : (HomeLayer.profileImageView url).picture? = some url := rfl
    rw [pictures, draw, List.filterMap_cons_some hPicture, List.reverse_cons]
    rfl

/-- What the calls of an event ask of the image views leaves each with its URL. -/
theorem loads_shown {home : HomeView} {calls : List ViewCall}
    {w w' : WebCache PictureView UIImage} (hGood : w.Good [])
    (hShown : ∀ k, (w.views (.home k)).imageURL = home.pictures[k]?)
    (hRun : run WebCache.step w (loads home.pictures.length calls) = some w') :
    w'.Good [] ∧ ∀ k, (w'.views (.home k)).imageURL = (calls.foldl draw home).pictures[k]? := by
  induction calls generalizing home w with
  | nil => exact Option.some.inj hRun ▸ ⟨hGood, hShown⟩
  | cons call calls ih =>
    have hDraw := home.pictures_draw call
    cases call with
    | addProfileImageView url =>
      obtain ⟨x, hStep, hRest⟩ := run_cons_some hRun
      obtain rfl := Option.some.inj hStep
      have hRequested := WebCache.setImageWithURL_requested hGood (.trivial w)
        (.home home.pictures.length) url
      refine ih hRequested.good (fun k => ?_) ?_
      · rw [hDraw]
        by_cases hLast : k = home.pictures.length
        · rw [hLast, hRequested.imageURL, List.getElem?_concat_length]
        · have hOther : PictureView.home k ≠ .home home.pictures.length :=
            fun hSame => hLast (PictureView.home.inj hSame)
          rw [hRequested.others _ hOther, hShown]
          rcases Nat.lt_or_ge k home.pictures.length with hLt | hGe
          · rw [List.getElem?_append_left hLt]
          · have hNone : ([url] : List String)[k - home.pictures.length]? = none :=
              List.getElem?_eq_none (by simp; omega)
            rw [List.getElem?_append_right hGe, hNone, List.getElem?_eq_none hGe]
      · rw [hDraw, List.length_append]
        exact hRest
    | _ =>
      rw [List.append_nil] at hDraw
      exact ih hGood (fun k => hDraw ▸ hShown k) (hDraw ▸ hRun)

end HomeView

/-- What the edit screens ask of their image views. -/
theorem App.editLoads_cases (parses : URLParser) (a : App) (e : App.Event) :
    a.editLoads parses e = [] ∨ ∃ s, (∃ image, a.editLoads parses e = [.setImage (.edit s) image]) ∨
      ∃ url, a.editLoads parses e = [.setImageWithURL (.edit s) url] := by
  unfold editLoads
  split
  · split
    · exact Or.inr ⟨_, Or.inl ⟨_, rfl⟩⟩
    · exact Or.inl rfl
  · split
    · split_ifs
      · exact Or.inr ⟨_, Or.inr ⟨_, rfl⟩⟩
      · exact Or.inl rfl
    · exact Or.inl rfl
  · exact Or.inl rfl

theorem HomeView.mem_loads {calls : List ViewCall} {n : ℕ} {e : ImageEvent}
    (h : e ∈ loads n calls) : ∃ k url, e = .setImageWithURL (.home k) url := by
  induction calls generalizing n with
  | nil => exact absurd h List.not_mem_nil
  | cons call calls ih =>
    cases call with
    | addProfileImageView url =>
      rcases List.mem_cons.mp h with rfl | hRest
      · exact ⟨n, url, rfl⟩
      · exact ih hRest
    | _ => exact ih h

/-- The screens only ask views of their own, and no image view of the home screen is
assigned an image. -/
theorem Device.mem_loads {d : Device} {e : Device.Event} {e' : ImageEvent}
    (h : e' ∈ d.loads parses e) : e'.view? ≠ none ∧ ∀ k image, e' ≠ .setImage (.home k) image := by
  cases e with
  | app event =>
    rcases List.mem_append.mp h with hHome | hEdit
    · obtain ⟨k, url, rfl⟩ := HomeView.mem_loads hHome
      exact ⟨by simp [WebCache.Event.view?], fun _ _ => by simp⟩
    · rcases d.app.editLoads_cases parses event with
        hNone | ⟨s, ⟨image, hEq⟩ | ⟨url, hEq⟩⟩
      · exact absurd (hNone ▸ hEdit) List.not_mem_nil
      · obtain rfl := List.mem_singleton.mp (hEq ▸ hEdit)
        exact ⟨by simp [WebCache.Event.view?], fun _ _ => by simp⟩
      · obtain rfl := List.mem_singleton.mp (hEq ▸ hEdit)
        exact ⟨by simp [WebCache.Event.view?], fun _ _ => by simp⟩
  | _ => exact absurd h List.not_mem_nil

/-- The edit screens leave the image views of the home screen alone. -/
theorem App.editLoads_shown {a : App} {e : App.Event} {w w' : WebCache PictureView UIImage}
    (hGood : w.Good []) (hRun : run WebCache.step w (a.editLoads parses e) = some w') (k : ℕ) :
    (w'.views (.home k)).imageURL = (w.views (.home k)).imageURL := by
  rcases a.editLoads_cases parses e with hNone | ⟨s, ⟨image, hEq⟩ | ⟨url, hEq⟩⟩
  · rw [hNone] at hRun
    exact Option.some.inj hRun ▸ rfl
  · rw [hEq] at hRun
    obtain rfl := Option.some.inj hRun
    rw [WebCache.views_setImage, if_neg (by simp)]
  · rw [hEq] at hRun
    obtain rfl := Option.some.inj hRun
    have hRequested := WebCache.setImageWithURL_requested hGood (.trivial w) (.edit s) url
    rw [hRequested.others _ (by simp)]

-- ---------------------------------------------------------------------------
-- Phones
-- ---------------------------------------------------------------------------

namespace Phone

/-- What an invariant of the image views has to keep to be one of phones, if the pod's
own steps meet `C`. -/
structure ImageRule (I : WebCache PictureView UIImage → Prop)
    (C : WebCache PictureView UIImage → ImageEvent → Prop) : Prop where
  good : ∀ w, I w → w.Good []
  launched : ∀ w, I w → I (.launched w.diskCache)
  asked : ∀ w e, e.view? ≠ none → C w e
  step : ∀ w e w', I w → C w e → (∀ k image, e ≠ .setImage (.home k) image) →
    w.step e = some w' → I w'

/-- The image views of the home screen have the URLs of its pictures. -/
structure Loads (parses : URLParser) (I : WebCache PictureView UIImage → Prop) (p : Phone) :
    Prop where
  wellFormed : p.device.home.WellFormed parses
  images : I p.images
  pictures : ∀ k, (p.images.views (.home k)).imageURL = p.device.home.pictures[k]?

/-- The events of the device meet `D`, and the pod's own steps `C`. -/
def Event.Meets (D : Device → Device.Event → Prop)
    (C : WebCache PictureView UIImage → ImageEvent → Prop) (p : Phone) : Event → Prop
  | .device e => D p.device e
  | .images e => C p.images e

variable {p p' : Phone} {I : WebCache PictureView UIImage → Prop}
  {C : WebCache PictureView UIImage → ImageEvent → Prop}

theorem Loads.step_device (hRule : ImageRule I C) (h : p.Loads parses I) {e : Device.Event}
    (hStep : p.step parses (.device e) = some p') : p'.Loads parses I := by
  obtain ⟨hDevice, ⟨rfl, hImages⟩ | ⟨hLaunch, hRun⟩⟩ := Phone.step_device hStep
  · have hWellFormed := Device.step_home h.wellFormed hDevice
    obtain ⟨app, -, ⟨-, hLaunched⟩ | ⟨hNot, -⟩⟩ := Device.step_app hDevice
    · refine ⟨hWellFormed, hImages ▸ hRule.launched _ h.images, fun k => ?_⟩
      rw [hImages, hLaunched]
      rfl
    · exact absurd rfl hNot
  · refine ⟨Device.step_home h.wellFormed hDevice, ?_, fun k => ?_⟩
    · have hAlong : Along WebCache.step (fun w e' => C w e' ∧
          ∀ k image, e' ≠ .setImage (.home k) image) p.images (p.device.loads parses e) :=
        .of_mem fun e' hMem w => ⟨hRule.asked w e' (Device.mem_loads hMem).1,
          (Device.mem_loads hMem).2⟩
      have hAlways : Always WebCache.step I p.images (p.device.loads parses e) :=
        .of_invariant (fun w e' w' hI hCond => hRule.step w e' w' hI hCond.1 hCond.2) h.images
          hAlong
      exact hAlways.last hRun
    · cases e with
      | app event =>
        obtain ⟨app, -, ⟨rfl, -⟩ | ⟨-, hDisplay⟩⟩ := Device.step_app hDevice
        · exact absurd rfl hLaunch
        · rw [Device.loads, run_append] at hRun
          obtain ⟨w, hHome, hEdit⟩ := Option.bind_eq_some_iff.mp hRun
          obtain ⟨hGood, hShown⟩ := HomeView.loads_shown (hRule.good _ h.images) h.pictures hHome
          rw [App.editLoads_shown hGood hEdit k, hShown, hDisplay]
          rfl
      | _ =>
        have hHome : p'.device.home = p.device.home := by
          unfold Device.step at hDevice
          dsimp only at hDevice
          first
          | exact Option.some.inj hDevice ▸ rfl
          | obtain ⟨-, hEq⟩ := Option.ite_none_right_eq_some.mp hDevice
            exact Option.some.inj hEq ▸ rfl
        rw [hHome, ← Option.some.inj hRun]
        exact h.pictures k

theorem Loads.step_images (hRule : ImageRule I C) (h : p.Loads parses I) {e : ImageEvent}
    (hCond : C p.images e) (hStep : p.step parses (.images e) = some p') :
    p'.Loads parses I := by
  obtain ⟨hView, hDevice, hImages⟩ := Phone.step_images hStep
  have hProceeds := WebCache.background_proceeds (hRule.good _ h.images) (.trivial _) hView
    (e.serves_trivial _) hImages
  have hNotSet : ∀ k image, e ≠ .setImage (.home k) image := by
    rintro k image rfl
    exact absurd hView (by simp [WebCache.Event.view?])
  refine ⟨hDevice ▸ h.wellFormed, hRule.step _ _ _ h.images hCond hNotSet hImages, fun k => ?_⟩
  rw [hProceeds.delivers.imageURL, hDevice]
  exact h.pictures k

/--
**Phone rule.** An invariant of the image views is one of phones, beside the one that
ties the image views to the home screen, and the home screen to its user.
-/
theorem always_loads {backend : Backend} {disk : String → Option UIImage} {es : List Event}
    (hRule : ImageRule I C) (hInit : I (.launched disk))
    (hMeets : Along (Phone.step parses) (fun p e => e.Meets (Device.KeepsHome parses) C p)
      (Phone.start backend disk) es) :
    Always (Phone.step parses) (fun p => p.Loads parses I ∧ p.device.HomeShowsUser)
      (Phone.start backend disk) es := by
  have hUser : (App.start backend).user = none := App.launch_user _ _
  refine .of_invariant ?_ ⟨⟨HomeView.wellFormed_loaded, hInit, fun _ => rfl⟩, ?_⟩ hMeets
  · rintro p e p' ⟨hLoads, hShows⟩ hMeets hStep
    cases e with
    | device e =>
      refine ⟨hLoads.step_device hRule hStep, ?_⟩
      exact (Device.step_shows hLoads.wellFormed hShows (Phone.step_device hStep).1).mpr hMeets
    | images e =>
      refine ⟨hLoads.step_images hRule hMeets hStep, ?_⟩
      exact (Phone.step_images hStep).2.1 ▸ hShows
  · rw [Device.HomeShowsUser, start, Device.start, Device.launched, hUser]
    exact ⟨rfl, rfl⟩

/-- The image view in front has the URL of the user's picture. -/
theorem Loads.front (h : p.Loads parses I) (hShows : p.device.HomeShowsUser) {user : User}
    (hUser : p.device.app.user = some user) :
    (p.images.views (.home (p.device.home.pictures.length - 1))).imageURL =
        some user.profileImageUrl ∧
      ∃ rest, p.device.home.uncoveredViews = .home (p.device.home.pictures.length - 1) :: rest := by
  have hFront : p.device.home.profileImage = some user.profileImageUrl := by
    rw [hShows.1, hUser]
    rfl
  obtain ⟨hLast, hViews⟩ := HomeView.pictures_getLast hFront
  exact ⟨(h.pictures _).trans hLast, hViews⟩

-- ---------------------------------------------------------------------------
-- The results
-- ---------------------------------------------------------------------------

theorem showsItsURL_rule : ImageRule
    (fun w => w.Sound S ∧ ∀ k, w.ShowsItsURL S (.home k)) (fun w e => e.Serves S w) where
  good _ h := h.1.good
  launched _ h := ⟨.launched h.1.served.disk, fun _ => .launched _⟩
  asked w e hView := by
    cases e with
    | setImageWithURL | setImage => trivial
    | _ => exact absurd rfl hView
  step w e w' h hServes hNotSet hStep := ⟨(h.1.step hServes hStep).1, fun k =>
    (h.2 k).step h.1 hServes (hNotSet k) hStep⟩

theorem honest_rule : ImageRule
    (fun w => w.Honest S R fun v => ∃ k, v = .home k) (fun w e => e.Honest S R w) where
  good _ h := h.sound.good
  launched _ h := .launched h.sound.served.disk
  asked w e hView := by
    cases e with
    | setImageWithURL | setImage => exact ⟨trivial, trivial, rfl⟩
    | _ => exact absurd rfl hView
  step w e w' h hHonest hNotSet hStep := by
    refine h.step hHonest ?_ hStep
    rintro _ ⟨k, rfl⟩
    exact hNotSet k

end Phone

instance Device.decidableKeepsHome (d : Device) (e : Device.Event) :
    Decidable (d.KeepsHome parses e) :=
  match e with
  | .app event => inferInstanceAs (Decidable (∀ user ∈ d.app.assigns event,
      parses user.profileImageUrl = true ∧ (user.hasSeenOnboarding = true ∨
        ∀ old ∈ d.app.user, old.hasSeenOnboarding = false)))
  | .animationDidFinish | .release _ => isTrue trivial

instance Phone.Event.decidableMeets {D : Device → Device.Event → Prop}
    {C : WebCache PictureView UIImage → ImageEvent → Prop} [∀ d e, Decidable (D d e)]
    [∀ w e, Decidable (C w e)] (p : Phone) (e : Phone.Event) : Decidable (e.Meets D C p) :=
  match e with
  | .device e => inferInstanceAs (Decidable (D p.device e))
  | .images e => inferInstanceAs (Decidable (C p.images e))

def annOnboarded : Backend where
  accounts := [⟨"a", some "ann@mail"⟩]
  currentUser := some "a"
  users := Function.update (fun _ => none) "a"
    (some (((profileValues "ann@mail" "Ann" "a.jpg" "a").document).merge
      [("hasSeenOnboarding", .bool true)]))
  images := fun _ => none
  database := fun _ => none

/-- Ann's picture is loaded, and she picks another one, which is uploaded and saved. The
home screen is given it twice, and both image views share its download. -/
def newSelfie : List Phone.Event :=
  [.device (.app (.perform 0 .success)), .device (.app (.deliver 0)), .images .io, .images .main,
   .images (.didComplete 0 (.ok ⟨"a.jpg", true⟩)), .images (.done 0), .images .main,
   .device (.app .handleEditProfile), .device (.app (.perform 1 .success)),
   .device (.app (.deliver 1)), .device (.app .handleChangeProfilePhoto),
   .device (.app (.imagePickerController (some ⟨"selfie", true⟩) "file")),
   .device (.app (.perform 2 (.url "selfie.jpg"))), .device (.app (.deliver 2)),
   .device (.app (.perform 2 (.url "selfie.jpg"))), .device (.app (.deliver 2)),
   .device (.app (.perform 2 .success)), .device (.app (.deliver 2)),
   .device (.app .handleDone), .images .io, .images .io, .images .io, .images .main, .images .main,
   .images (.didComplete 1 (.ok ⟨"selfie.jpg", true⟩)), .images .main, .images .io, .images .io]

/--
**The picture in front is the user's.** In every run of a phone from a launch in which
each user assigned can take the place of the one before, the image view in front shows
nothing yet, or a picture that was served at the URL of the home screen's user.
-/
theorem front_picture_is_users {backend : Backend} {disk : String → Option UIImage}
    {es : List Phone.Event} (hDisk : ∀ url image, disk url = some image → S url image)
    (hMeets : Along (Phone.step parses) (fun p e => e.Meets (Device.KeepsHome parses)
      (fun w e => e.Serves S w) p) (Phone.start backend disk) es) :
    Always (Phone.step parses) (fun p => ∀ user, p.device.app.user = some user → ∃ v rest,
      p.device.home.uncoveredViews = v :: rest ∧
        ∀ image, (p.images.views v).image = some image → S user.profileImageUrl image)
      (Phone.start backend disk) es := by
  have hInit : (WebCache.launched disk : WebCache PictureView UIImage).Sound S ∧
      ∀ k, (WebCache.launched disk).ShowsItsURL S (PictureView.home k) :=
    ⟨.launched hDisk, fun _ => .launched disk⟩
  refine (Phone.always_loads Phone.showsItsURL_rule hInit hMeets).mono ?_
  rintro p ⟨hLoads, hShows⟩ user hUser
  obtain ⟨hURL, rest, hViews⟩ := hLoads.front hShows hUser
  refine ⟨_, rest, hViews, fun image hImage => ?_⟩
  obtain ⟨url, hSame, hServed⟩ := hLoads.images.2 _ image hImage
  obtain rfl := Option.some.inj (hURL.symm.trans hSame)
  exact hServed

theorem newSelfie_is_users :
    Always (Phone.step fun _ => true) (fun p => ∀ user, p.device.app.user = some user → ∃ v rest,
      p.device.home.uncoveredViews = v :: rest ∧
        ∀ image, (p.images.views v).image = some image → image.content = user.profileImageUrl)
      (Phone.start annOnboarded fun _ => none) newSelfie :=
  front_picture_is_users (S := fun url image => image.content = url)
    (fun _ _ h => absurd h (by simp)) (by decide)

/--
**At rest the home screen shows its user.** Let the server have the pictures in `R`, and
let no load join a download that has been answered. In every run of a phone from a
launch in which each user assigned can take the place of the one before, whenever no
picture is on its way any more, the one that is seen on the home screen was served at
the URL of its user, if that is in `R`.
-/
theorem rested_home_shows_user {backend : Backend} {disk : String → Option UIImage}
    {es : List Phone.Event} (hDisk : ∀ url image, disk url = some image → S url image)
    (hMeets : Along (Phone.step parses) (fun p e => e.Meets (Device.KeepsHome parses)
      (fun w e => e.Honest S R w) p) (Phone.start backend disk) es) :
    Always (Phone.step parses) (fun p => p.images.AtRest → ∀ user,
      p.device.app.user = some user → R user.profileImageUrl → user.profileImageUrl ≠ "" →
        ∃ image, p.profileImage = some image ∧ S user.profileImageUrl image)
      (Phone.start backend disk) es := by
  have hInit : (WebCache.launched disk : WebCache PictureView UIImage).Honest S R
      fun v => ∃ k, v = .home k := .launched hDisk
  refine (Phone.always_loads Phone.honest_rule hInit hMeets).mono ?_
  rintro p ⟨hLoads, hShows⟩ hRest user hUser hR hNonempty
  obtain ⟨hURL, rest, hViews⟩ := hLoads.front hShows hUser
  obtain ⟨image, hImage, hServed⟩ := hLoads.images.rested hRest ⟨_, rfl⟩ hURL hR hNonempty
  refine ⟨image, ?_, hServed⟩
  rw [Phone.profileImage, hViews, List.findSome?_cons, hImage]

theorem newSelfie_rests :
    ((run (Phone.step fun _ => true) (Phone.start annOnboarded fun _ => none) newSelfie).map
      (·.profileImage)) = some (some ⟨"selfie.jpg", true⟩) ∧
    Always (Phone.step fun _ => true) (fun p => p.images.AtRest → ∀ user,
      p.device.app.user = some user → True → user.profileImageUrl ≠ "" →
        ∃ image, p.profileImage = some image ∧ image.content = user.profileImageUrl)
      (Phone.start annOnboarded fun _ => none) newSelfie :=
  ⟨by decide, rested_home_shows_user (S := fun url image => image.content = url)
    (R := fun _ => True) (fun _ _ h => absurd h (by simp)) (by decide)⟩

end AggroApp
