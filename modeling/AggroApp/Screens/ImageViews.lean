import AggroApp.Screens.Loads

/-!
# AggroApp — what the image views show

Image views under every interleaving of the threads.

## Results

* `last_url_wins` — a view never shows a picture of another URL than its last.
* `assigned_image_stays` — a picture that is assigned directly stays if no load of the
  view is on its way.
* `failed_url_shows_nothing` — a URL that has failed for good shows nothing from then
  on.
-/

namespace AggroApp

open Async

variable {ν ι : Type*} {S : String → ι → Prop}

namespace WebCache

variable {w w' : WebCache ν ι} {url : String} {v : ν}

-- ---------------------------------------------------------------------------
-- Every event
-- ---------------------------------------------------------------------------

/-- What holds after every run. -/
structure Sound (S : String → ι → Prop) (w : WebCache ν ι) : Prop where
  good : w.Good []
  served : w.Served S

theorem Sound.launched {disk : String → Option ι} (hDisk : ∀ url image, disk url = some image →
    S url image) : (launched disk : WebCache ν ι).Sound S where
  good := by
    refine ⟨fun i _ => rfl, fun i operation hi => ?_, fun i operation hi => ?_,
      fun url d hd => ?_, fun download hMem => ?_⟩
    · exact absurd hi (by simp [WebCache.launched])
    · exact absurd hi (by simp [WebCache.launched])
    · exact absurd hd (by simp [WebCache.launched])
    · exact absurd hMem (by simp [WebCache.launched])
  served := by
    refine ⟨fun url image hx => ?_, hDisk, fun url image hMem => ?_, fun i image url hMem => ?_,
      fun blocks image i url hMem => ?_⟩
    · exact absurd hx (by simp [WebCache.launched])
    · exact absurd hMem (by simp [WebCache.launched])
    · exact absurd hMem (by simp [WebCache.launched])
    · exact absurd hMem (by simp [WebCache.launched])

/-- A view that the event does not concern keeps its URL, and keeps its picture unless
a load of its own is running. -/
structure Spares (S : String → ι → Prop) (v : ν) (w w' : WebCache ν ι) : Prop where
  imageURL : (w'.views v).imageURL = (w.views v).imageURL
  image : (w'.views v).image = (w.views v).image ∨ ∃ image url,
    (w'.views v).image = some image ∧ (w.views v).imageURL = some url ∧ S url image ∧ ¬ w.Quiet v
  quiet : w.Quiet v → w'.Quiet v

theorem Event.serves_trivial (e : Event ν ι) (w : WebCache ν ι) : e.Serves (fun _ _ => True) w := by
  unfold Event.Serves
  split
  · exact fun _ _ => trivial
  · trivial

/-- The view shows nothing, or a picture that was served at the URL it was given last. -/
def ShowsItsURL (S : String → ι → Prop) (v : ν) (w : WebCache ν ι) : Prop :=
  ∀ image, (w.views v).image = some image → ∃ url, (w.views v).imageURL = some url ∧ S url image

theorem ShowsItsURL.launched (disk : String → Option ι) :
    (launched disk : WebCache ν ι).ShowsItsURL S v :=
  fun _ hImage => absurd hImage (by simp [WebCache.launched])

variable [DecidableEq ν]

theorem Sound.step (h : w.Sound S) {e : Event ν ι} (hServes : e.Serves S w)
    (hStep : w.step e = some w') :
    w'.Sound S ∧ ∀ v, e.view? ≠ some v → Spares S v w w' := by
  cases e with
  | setImageWithURL u url =>
    obtain rfl := Option.some.inj hStep
    have hRequested := setImageWithURL_requested h.good h.served u url
    refine ⟨⟨hRequested.good, hRequested.served⟩, fun v hOther => ?_⟩
    have hNe : v ≠ u := fun hSame => hOther (congrArg some hSame.symm)
    have hSame := hRequested.others v hNe
    exact ⟨by rw [hSame], Or.inl (by rw [hSame]), hRequested.quiet v hNe⟩
  | setImage u image =>
    obtain rfl := Option.some.inj hStep
    refine ⟨⟨h.good.setImage u image, h.served.congr rfl rfl rfl rfl rfl⟩, fun v hOther => ?_⟩
    have hNe : v ≠ u := fun hSame => hOther (congrArg some hSame.symm)
    have hSame : (w.setImage u image).views v = w.views v := by
      rw [views_setImage, if_neg hNe]
    exact ⟨by rw [hSame], Or.inl (by rw [hSame]), id⟩
  | _ =>
    have hProceeds := background_proceeds h.good h.served rfl hServes hStep
    exact ⟨⟨hProceeds.good, hProceeds.served⟩, fun v _ => ⟨hProceeds.delivers.imageURL v,
      hProceeds.delivers.image v, hProceeds.delivers.quiet v⟩⟩

/-- Whatever the server sends, the operations stay in their places. -/
theorem Sound.run {es : List (Event ν ι)} {disk : String → Option ι}
    (hRun : Async.run WebCache.step (WebCache.launched disk) es = some w) :
    w.Sound fun _ _ => True := by
  refine (Always.of_step (I := Sound fun _ _ => True) (fun x e y hSound hStep => ?_)
    (.launched fun _ _ _ => trivial)).last hRun
  exact (hSound.step (e.serves_trivial x) hStep).1

-- ---------------------------------------------------------------------------
-- The results
-- ---------------------------------------------------------------------------

theorem ShowsItsURL.step (h : w.ShowsItsURL S v) (hSound : w.Sound S) {e : Event ν ι}
    (hServes : e.Serves S w) (hNotSet : ∀ image, e ≠ .setImage v image)
    (hStep : w.step e = some w') : w'.ShowsItsURL S v := by
  obtain ⟨-, hSpares⟩ := hSound.step hServes hStep
  intro image hImage
  by_cases hView : e.view? = some v
  · cases e with
    | setImageWithURL u url =>
      obtain rfl := Option.some.inj hView
      obtain rfl := Option.some.inj hStep
      have hRequested := setImageWithURL_requested hSound.good hSound.served u url
      rcases hRequested.image with hNone | ⟨x, hx, hServed⟩
      · exact absurd (hNone.symm.trans hImage) (by simp)
      · obtain rfl := Option.some.inj (hx.symm.trans hImage)
        exact ⟨url, hRequested.imageURL, hServed⟩
    | setImage u image =>
      obtain rfl := Option.some.inj hView
      exact absurd rfl (hNotSet image)
    | _ => exact absurd hView (by simp [Event.view?])
  · have hSpared := hSpares v hView
    rw [hSpared.imageURL]
    rcases hSpared.image with hSame | ⟨x, url, hx, hURL, hServed, -⟩
    · exact h image (hSame ▸ hImage)
    · obtain rfl := Option.some.inj (hx.symm.trans hImage)
      exact ⟨url, hURL, hServed⟩

/--
**The last URL wins.** Whatever is requested for this view and others, and in which
order the disk and the server answer, a view that is not assigned a picture directly
never shows one of another URL than its last.
-/
theorem last_url_wins {disk : String → Option ι} {es : List (Event ν ι)} (v : ν)
    (hDisk : ∀ url image, disk url = some image → S url image)
    (hServes : Along step (fun w e => e.Serves S w) (launched disk) es)
    (hNotSet : ∀ image, .setImage v image ∉ es) :
    Always step (ShowsItsURL S v) (launched disk) es := by
  have hAlong : Along step (fun w e => e.Serves S w ∧ ∀ image, e ≠ .setImage v image)
      (launched disk) es :=
    hServes.and_mem fun e hMem image hEq => hNotSet image (hEq ▸ hMem)
  have hAlways : Always step (fun w : WebCache ν ι => w.Sound S ∧ w.ShowsItsURL S v)
      (launched disk) es :=
    .of_invariant (fun w e w' h hCond hStep => ⟨(h.1.step hCond.1 hStep).1,
      h.2.step h.1 hCond.1 hCond.2 hStep⟩) ⟨.launched hDisk, .launched disk⟩ hAlong
  exact hAlways.mono fun _ h => h.2

instance Event.decidableServes [DecidableRel S] (w : WebCache ν ι) (e : Event ν ι) :
    Decidable (e.Serves S w) :=
  match e with
  | .didComplete d (.ok image) =>
    inferInstanceAs (Decidable (∀ download ∈ w.downloads[d]?, S download.url image))
  | .didComplete _ (.error _) | .setImageWithURL _ _ | .setImage _ _ | .io | .main | .done _
  | .completionBlock _ | .removeFromMemory _ | .removeFromDisk _ => isTrue trivial

/-- Two views share a download; one of them is given another URL, which is answered
first. -/
def changedItsMind : List (Event ℕ String) :=
  [.setImageWithURL 0 "ann.jpg", .setImageWithURL 1 "ann.jpg", .io, .io, .main, .main,
   .setImageWithURL 0 "bob.jpg", .io, .main, .didComplete 1 (.ok "bob.jpg"),
   .didComplete 0 (.ok "ann.jpg"), .main, .main]

theorem changedItsMind_wins :
    ((run WebCache.step (launched fun _ => none) changedItsMind).map fun w =>
      ((w.views 0).image, (w.views 1).image)) = some (some "bob.jpg", some "ann.jpg") ∧
    Always WebCache.step (ShowsItsURL (fun url image => image = url) 0)
      (launched fun _ => none) changedItsMind := by
  refine ⟨by decide, last_url_wins 0 (fun _ _ h => absurd h (by simp)) (by decide) fun image => ?_⟩
  simp [changedItsMind]

/-- A view without a running load keeps its picture as long as it is left alone. -/
theorem Sound.quiet_kept (h : w.Sound fun _ _ => True) (hQuiet : w.Quiet v)
    {es : List (Event ν ι)} (hOthers : ∀ e ∈ es, e.view? ≠ some v) :
    Always WebCache.step (fun x => (x.views v).image = (w.views v).image) w es := by
  have hAlways : Always WebCache.step (fun x : WebCache ν ι =>
      (x.Sound fun _ _ => True) ∧ x.Quiet v ∧ (x.views v).image = (w.views v).image) w es := by
    have hAlong : Along WebCache.step (fun _ e => e.view? ≠ some v) w es :=
      .of_mem fun e hMem _ => hOthers e hMem
    refine .of_invariant ?_ ⟨h, hQuiet, rfl⟩ hAlong
    rintro x e y ⟨hSound, hQuiet, hImage⟩ hOther hStep
    obtain ⟨hSound', hSpares⟩ := hSound.step (e.serves_trivial x) hStep
    have hSpared := hSpares v hOther
    refine ⟨hSound', hSpared.quiet hQuiet, ?_⟩
    rcases hSpared.image with hSame | ⟨-, -, -, -, -, hBusy⟩
    · exact hSame.trans hImage
    · exact absurd hQuiet hBusy
  exact hAlways.mono fun _ h => h.2.2

/-- A picture that a view is assigned directly stays, if no load of the view is running. -/
theorem assigned_image_stays {disk : String → Option ι} {es fs : List (Event ν ι)}
    (hRun : run WebCache.step (launched disk) es = some w) (hQuiet : w.Quiet v)
    (image : Option ι) (hOthers : ∀ e ∈ fs, e.view? ≠ some v) :
    Always WebCache.step (fun x => (x.views v).image = image) (w.setImage v image) fs := by
  have hSound := Sound.run hRun
  have hSet : (w.setImage v image).Sound fun _ _ => True :=
    ⟨hSound.good.setImage v image, hSound.served.congr rfl rfl rfl rfl rfl⟩
  have hImage : ((w.setImage v image).views v).image = image := by
    rw [views_setImage, if_pos rfl]
  have hAlways := hSet.quiet_kept (v := v) hQuiet hOthers
  rwa [hImage] at hAlways

/-- A load that has been answered, and loads of others. -/
def annLoaded : List (Event ℕ String) :=
  [.setImageWithURL 0 "ann.jpg", .io, .main, .didComplete 0 (.ok "ann.jpg"), .main]

def bobLoads : List (Event ℕ String) :=
  [.setImageWithURL 1 "bob.jpg", .io, .done 0, .io, .main, .didComplete 1 (.ok "bob.jpg"), .main]

theorem annLoaded_picks :
    ∃ w, run WebCache.step (launched fun _ => none) annLoaded = some w ∧
      Always WebCache.step (fun x => (x.views 0).image = some "selfie")
        (w.setImage 0 (some "selfie")) bobLoads := by
  have hOver : ((run WebCache.step (launched fun _ => none) annLoaded).any fun w =>
      w.operations.all fun operation => !operation.isRunning) = true := by
    decide
  obtain ⟨w, hRun, hAll⟩ := (Option.any_eq_true _ _).mp hOver
  refine ⟨w, hRun, assigned_image_stays hRun (fun i operation hOperation _ => ?_) (some "selfie")
    (by simp [bobLoads, Event.view?])⟩
  simpa using List.all_eq_true.mp hAll operation (List.mem_of_getElem? hOperation)

/-- A load that is still on its way replaces the picture that the view was assigned. -/
example : (run WebCache.step (launched fun _ => none)
    [.setImageWithURL 0 "ann.jpg", .io, .main, .setImage 0 (some "selfie"),
     .didComplete 0 (.ok "ann.jpg"), .main]).map (fun w : WebCache ℕ String => (w.views 0).image) =
      some (some "ann.jpg") := by
  decide

-- ---------------------------------------------------------------------------
-- Failed URLs
-- ---------------------------------------------------------------------------

theorem failedURLs_callCompletionBlock (w : WebCache ν ι) (i : ℕ) (image : Option ι) :
    (w.callCompletionBlock i image).failedURLs = w.failedURLs := by
  unfold callCompletionBlock
  split
  · split_ifs <;> rfl
  · rfl

theorem failedURLs_queried (w : WebCache ν ι) (i : ℕ) (image : Option ι) :
    (w.queried i image).failedURLs = w.failedURLs := by
  unfold queried
  split
  · rfl
  · split_ifs
    · rfl
    · split
      · unfold downloadImage
        split <;> rfl
      · exact failedURLs_callCompletionBlock w i _

theorem failedURLs_downloaded (answer : Except NSError ι) (w : WebCache ν ι) (i : ℕ) :
    w.failedURLs ⊆ (downloaded answer w i).failedURLs := by
  unfold downloaded
  split
  · exact List.Subset.refl _
  · split_ifs
    · exact List.Subset.refl _
    · split
      · show w.failedURLs ⊆ ite _ _ w.failedURLs
        split_ifs
        · exact List.subset_cons_self _ _
        · exact List.Subset.refl _
      · show w.failedURLs ⊆ (callCompletionBlock _ i _).failedURLs
        rw [failedURLs_callCompletionBlock]
        exact List.Subset.refl _

theorem failedURLs_completed (answer : Except NSError ι) (blocks : List ℕ) (w : WebCache ν ι) :
    w.failedURLs ⊆ (blocks.foldl (downloaded answer) w).failedURLs := by
  induction blocks generalizing w with
  | nil => exact List.Subset.refl _
  | cons i blocks ih => exact List.Subset.trans (failedURLs_downloaded answer w i) (ih _)

/-- Nothing takes a URL off the list again. -/
theorem failedURLs_step {e : Event ν ι} (hStep : w.step e = some w') :
    w.failedURLs ⊆ w'.failedURLs := by
  cases e with
  | setImageWithURL u url =>
    obtain rfl := Option.some.inj hStep
    have hIdle : w.failedURLs ⊆ (w.cancelImageLoad u).failedURLs := by
      rw [failedURLs_cancelImageLoad]
      exact List.Subset.refl _
    rw [setImageWithURL_eq]
    rcases loadImage_cases (w.cancelImageLoad u) u url with
      ⟨-, hEq⟩ | ⟨-, ⟨image, -, hEq⟩ | hEq⟩
    · rw [hEq]
      exact hIdle
    · rw [hEq, failedURLs_queried]
      exact hIdle
    · rw [hEq]
      exact hIdle
  | io =>
    obtain ⟨block, rest, hIo, rfl⟩ := step_io hStep
    cases block with
    | storeImage url image => exact List.Subset.refl _
    | queryDisk i =>
      unfold io queryDisk
      dsimp only
      split
      · exact List.Subset.refl _
      · split_ifs
        · exact List.Subset.refl _
        · split <;> exact List.Subset.refl _
  | main =>
    obtain ⟨block, rest, hMain, rfl⟩ := step_main hStep
    cases block with
    | queried i image =>
      show w.failedURLs ⊆ (queried _ i image).failedURLs
      rw [failedURLs_queried]
      exact List.Subset.refl _
    | completed blocks answer =>
      exact failedURLs_completed answer blocks { w with mainQueue := rest }
  | setImage | removeFromMemory | removeFromDisk =>
    obtain rfl := Option.some.inj hStep
    exact List.Subset.refl _
  | didComplete d answer =>
    obtain ⟨download, -, -, -, rfl⟩ := step_didComplete hStep
    exact List.Subset.refl _
  | done d =>
    obtain ⟨download, -, -, -, rfl⟩ := step_done hStep
    exact List.Subset.refl _
  | completionBlock d =>
    obtain ⟨download, -, -, -, rfl⟩ := step_completionBlock hStep
    exact List.Subset.refl _

/--
**A failed URL stays failed.** Once the picture at a URL could not be loaded for a
reason that blocks it, a view that is given that URL at any later time shows nothing
until it is given another one, whatever the caches hold and the server sends.
-/
theorem failed_url_shows_nothing {disk : String → Option ι} {es fs gs : List (Event ν ι)}
    {w₁ : WebCache ν ι} (hRun : run WebCache.step (launched disk) es = some w)
    (hFailed : url ∈ w.failedURLs) (hLater : run WebCache.step w fs = some w₁)
    (hOthers : ∀ e ∈ gs, e.view? ≠ some v) :
    Always WebCache.step (fun x => (x.views v).image = none) (w₁.setImageWithURL v url) gs := by
  have hRun₁ := run_trans hRun hLater
  have hStill : url ∈ w₁.failedURLs :=
    (Always.of_step (I := fun x : WebCache ν ι => url ∈ x.failedURLs)
      (fun x e y hMem hStep => failedURLs_step hStep hMem) hFailed).last hLater
  have hSound := Sound.run hRun₁
  have hRequested := setImageWithURL_requested hSound.good hSound.served v url
  obtain ⟨hQuiet, hNone⟩ := hRequested.failed hStill
  have hSound' : (w₁.setImageWithURL v url).Sound fun _ _ => True :=
    ⟨hRequested.good, hRequested.served⟩
  have hAlways := hSound'.quiet_kept hQuiet hOthers
  rwa [hNone] at hAlways

/-- The server has sent something that is no picture. -/
def annFailed : List (Event ℕ String) :=
  [.setImageWithURL 0 "ann.jpg", .io, .main, .didComplete 0 (.error ⟨0⟩), .main]

theorem annFailed_shows_nothing :
    ∃ w w₁, run WebCache.step (launched fun _ => none) annFailed = some w ∧
      run WebCache.step w [.done 0, .completionBlock 0] = some w₁ ∧
      Always WebCache.step (fun x => (x.views 1).image = none) (w₁.setImageWithURL 1 "ann.jpg")
        bobLoads.tail := by
  have hBlocked : ((run WebCache.step (launched fun _ => none) annFailed).any fun w =>
      decide ("ann.jpg" ∈ w.failedURLs) &&
        (run WebCache.step w [.done 0, .completionBlock 0]).isSome) = true := by
    decide
  obtain ⟨w, hRun, hBoth⟩ := (Option.any_eq_true _ _).mp hBlocked
  rw [Bool.and_eq_true, decide_eq_true_eq] at hBoth
  obtain ⟨w₁, hLater⟩ := Option.isSome_iff_exists.mp hBoth.2
  exact ⟨w, w₁, hRun, hLater, failed_url_shows_nothing hRun hBoth.1 hLater
    (by simp [bobLoads, Event.view?])⟩

end WebCache

end AggroApp
