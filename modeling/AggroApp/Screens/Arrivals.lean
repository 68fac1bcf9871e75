import AggroApp.Screens.Downloads

/-!
# AggroApp — pictures arrive

A view that has been given a URL shows nothing until its load has ended. As long as
the server has the pictures in question, and no load is forgotten, each of them
arrives: when nothing is on its way any more, every view shows the picture of its URL.

## Results

* `rested_view_shows_url` — at rest, a view shows the picture of its last URL.
-/

namespace AggroApp

open Async

variable {ν ι : Type*} {S : String → ι → Prop} {R : String → Prop}

namespace WebCache

variable {w w' w'' : WebCache ν ι} {hand : List ℕ} {i : ℕ} {url : String} {v : ν}

-- ---------------------------------------------------------------------------
-- What the server has
-- ---------------------------------------------------------------------------

/-- An error is no answer for the URLs in `R`. -/
def Event.Reliable (R : String → Prop) (w : WebCache ν ι) : Event ν ι → Prop
  | .didComplete d (.error _) => ∀ download, w.downloads[d]? = some download → ¬ R download.url
  | _ => True

/-- No URL in `R` has failed, or is about to. -/
structure Unfailed (R : String → Prop) (w : WebCache ν ι) : Prop where
  failedURLs : ∀ url ∈ w.failedURLs, ¬ R url
  completed : ∀ blocks error i url, .completed blocks (.error error) ∈ w.mainQueue → i ∈ blocks →
    w.urls[i]? = some url → ¬ R url

/-- The entry of a view is one of its own operations. -/
def Owns (w : WebCache ν ι) : Prop :=
  ∀ v i, (w.views v).loadOperation = some i →
    ∃ operation, w.operations[i]? = some operation ∧ operation.view = v

/-- While the view shows nothing, it has a load that is running. -/
def Waits (R : String → Prop) (v : ν) (w : WebCache ν ι) : Prop :=
  ∀ url, (w.views v).imageURL = some url → R url → url ≠ "" → (w.views v).image = none →
    ∃ (i : ℕ) (operation : _), w.operations[i]? = some operation ∧ operation.view = v ∧
      operation.isRunning = true

-- ---------------------------------------------------------------------------
-- What the threads carry on
-- ---------------------------------------------------------------------------

/-- Each operation that was running still is, unless its view has got a picture. -/
structure Carries (R : String → Prop) (w w' : WebCache ν ι) : Prop where
  operations : ∀ (i : ℕ) operation, w.operations[i]? = some operation →
    ∃ after, w'.operations[i]? = some after ∧ after.view = operation.view ∧
      after.url = operation.url ∧ (operation.isRunning = true → after.isRunning = true ∨
        (w'.views operation.view).image.isSome = true ∨ ¬ R operation.url)
  image : ∀ v, (w.views v).image.isSome = true → (w'.views v).image.isSome = true
  unfailed : w.Unfailed R → w'.Unfailed R

namespace Carries

theorem trans (h : Carries R w w') (h' : Carries R w' w'') : Carries R w w'' where
  operations i operation hOperation := by
    obtain ⟨after, hAfter, hView, hURL, hGoes⟩ := h.operations i operation hOperation
    obtain ⟨last, hLast, hView', hURL', hGoes'⟩ := h'.operations i after hAfter
    refine ⟨last, hLast, hView'.trans hView, hURL'.trans hURL, fun hRunning => ?_⟩
    rcases hGoes hRunning with hStill | hImage | hNot
    · rw [hView, hURL] at hGoes'
      exact hGoes' hStill
    · exact Or.inr (Or.inl (h'.image _ hImage))
    · exact Or.inr (Or.inr hNot)
  image v hImage := h'.image v (h.image v hImage)
  unfailed hUnfailed := h'.unfailed (h.unfailed hUnfailed)

/-- Neither the operations nor the views are touched. -/
theorem of_same (hOperations : w'.operations = w.operations) (hViews : w'.views = w.views)
    (hUnfailed : w.Unfailed R → w'.Unfailed R) : Carries R w w' where
  operations _ operation hOperation :=
    ⟨operation, hOperations ▸ hOperation, rfl, rfl, Or.inl⟩
  image _ hImage := hViews ▸ hImage
  unfailed := hUnfailed

/-- An operation ends when its view has a picture, or cannot get one. -/
theorem safelyRemove (hEnds : ∀ operation, w.operations[i]? = some operation →
    operation.isRunning = true → (w.views operation.view).image.isSome = true ∨
      ¬ R operation.url) : Carries R w (w.safelyRemoveOperationFromRunning i) where
  operations j operation hOperation := by
    rw [safelyRemoveOperationFromRunning]
    by_cases hSame : i = j
    · subst hSame
      refine ⟨{ operation with isRunning := false }, ?_, rfl, rfl, fun hRunning =>
        Or.inr (hEnds operation hOperation hRunning)⟩
      rw [List.getElem?_modify_eq, hOperation]
      rfl
    · exact ⟨operation, (List.getElem?_modify_ne _ _ hSame).trans hOperation, rfl, rfl, Or.inl⟩
  image _ := id
  unfailed h := ⟨h.failedURLs, fun blocks error j url hMem hj hURL =>
    h.completed blocks error j url hMem hj (urls_safelyRemove w i ▸ hURL)⟩

theorem downloadImage (w : WebCache ν ι) (url : String) (i : ℕ) :
    Carries R w (w.downloadImage url i) where
  operations j operation hOperation := by
    have hOperations : (w.downloadImage url i).operations = w.operations.modify i
        fun operation => { operation with downloadToken := true } := by
      unfold WebCache.downloadImage
      split <;> rfl
    rw [hOperations]
    by_cases hSame : i = j
    · subst hSame
      refine ⟨{ operation with downloadToken := true }, ?_, rfl, rfl, Or.inl⟩
      rw [List.getElem?_modify_eq, hOperation]
      rfl
    · exact ⟨operation, (List.getElem?_modify_ne _ _ hSame).trans hOperation, rfl, rfl, Or.inl⟩
  image v hImage := by
    have hViews : (w.downloadImage url i).views = w.views := by
      unfold WebCache.downloadImage
      split <;> rfl
    exact hViews ▸ hImage
  unfailed h := by
    have hSame : (w.downloadImage url i).failedURLs = w.failedURLs ∧
        (w.downloadImage url i).mainQueue = w.mainQueue := by
      unfold WebCache.downloadImage
      split <;> exact ⟨rfl, rfl⟩
    exact ⟨hSame.1 ▸ h.failedURLs, hSame.2 ▸ urls_downloadImage w url i ▸ h.completed⟩

/-- An operation that has been cancelled is not running any more. -/
theorem cancelled (h : w.Good hand) {operation : SDWebImageCombinedOperation ν}
    (hOperation : w.operations[i]? = some operation) (hCancelled : operation.isCancelled = true) :
    Carries R w (w.safelyRemoveOperationFromRunning i) := by
  refine safelyRemove fun other hOther hRunning => ?_
  obtain rfl := Option.some.inj (hOperation.symm.trans hOther)
  obtain ⟨hLive, -⟩ := h.running i operation hOperation hRunning
  exact absurd (hLive.symm.trans hCancelled) (by simp)

variable [DecidableEq ν]

theorem setImage (w : WebCache ν ι) (v : ν) (image : ι) :
    Carries R w (w.setImage v (some image)) where
  operations _ operation hOperation := ⟨operation, hOperation, rfl, rfl, Or.inl⟩
  image u hImage := by
    rw [views_setImage]
    split_ifs
    · rfl
    · exact hImage
  unfailed h := ⟨h.failedURLs, h.completed⟩

/-- An operation that has not been cancelled hands its picture to its view. -/
theorem callCompletionBlock (w : WebCache ν ι) {operation : SDWebImageCombinedOperation ν}
    (hOperation : w.operations[i]? = some operation) (hLive : ¬ operation.isCancelled = true)
    (image : ι) : Carries R w
      ((w.callCompletionBlock i (some image)).safelyRemoveOperationFromRunning i) := by
  simp only [WebCache.callCompletionBlock, hOperation, if_neg hLive]
  refine (setImage w operation.view image).trans (safelyRemove fun other hOther _ => Or.inl ?_)
  obtain rfl := Option.some.inj (hOperation.symm.trans hOther)
  rw [views_setImage, if_pos rfl]
  rfl

theorem queried (h : w.Good hand) (i : ℕ) (image : Option ι) :
    Carries R w (w.queried i image) := by
  unfold WebCache.queried
  split
  · exact of_same rfl rfl id
  · rename_i operation hOperation
    split_ifs with hCancelled
    · exact cancelled h hOperation hCancelled
    · split
      · exact downloadImage w operation.url i
      · exact callCompletionBlock w hOperation hCancelled _

theorem downloaded (h : w.Good hand) {answer : Except NSError ι}
    (hAnswer : ∀ error url, answer = .error error → w.urls[i]? = some url → ¬ R url) :
    Carries R w (WebCache.downloaded answer w i) := by
  unfold WebCache.downloaded
  split
  · exact of_same rfl rfl id
  · rename_i operation hOperation
    have hURL : w.urls[i]? = some operation.url :=
      urls_eq_some.mpr ⟨operation, hOperation, rfl⟩
    split_ifs with hCancelled
    · exact cancelled h hOperation hCancelled
    · split
      · rename_i error
        have hNot : ¬ R operation.url := hAnswer error operation.url rfl hURL
        rw [callCompletionBlock_none]
        let failed : WebCache ν ι := { w with
          failedURLs := if error.shouldBlockFailedURL then operation.url :: w.failedURLs
            else w.failedURLs }
        have hFailed : Carries R w failed := by
          refine of_same rfl rfl fun hUnfailed => ⟨fun url hMem => ?_, hUnfailed.completed⟩
          change url ∈ ite _ _ _ at hMem
          split_ifs at hMem
          · rcases List.mem_cons.mp hMem with rfl | hOld
            · exact hNot
            · exact hUnfailed.failedURLs url hOld
          · exact hUnfailed.failedURLs url hMem
        refine hFailed.trans (safelyRemove fun other hOther _ => Or.inr ?_)
        obtain rfl := Option.some.inj (hOperation.symm.trans hOther)
        exact hNot
      · rename_i image
        let stored : WebCache ν ι := { w with
          memCache := Function.update w.memCache operation.url (some image)
          ioQueue := w.ioQueue ++ [.storeImage operation.url image] }
        have hStored : Carries R w stored := of_same rfl rfl fun hUnfailed =>
          ⟨hUnfailed.failedURLs, hUnfailed.completed⟩
        exact hStored.trans (callCompletionBlock stored hOperation hCancelled image)

theorem completed {blocks : List ℕ} {answer : Except NSError ι} (h : w.Good (blocks ++ hand))
    (hAnswer : ∀ i ∈ blocks, ∀ error url, answer = .error error → w.urls[i]? = some url →
      ¬ R url) : Carries R w (blocks.foldl (WebCache.downloaded answer) w) := by
  induction blocks generalizing w with
  | nil => exact of_same rfl rfl id
  | cons i blocks ih =>
    have hFirst : Proceeds (fun _ _ => True) (blocks ++ hand) w (WebCache.downloaded answer w i) :=
      downloaded_proceeds h (.trivial w) answer fun _ _ _ _ => trivial
    refine (downloaded h (hAnswer i List.mem_cons_self)).trans (ih hFirst.good ?_)
    rw [hFirst.urls]
    exact fun j hj => hAnswer j (List.mem_cons_of_mem i hj)

end Carries

theorem io_carries {block : IOBlock ι} : Carries R w (w.io block) := by
  cases block with
  | storeImage url image =>
    exact .of_same rfl rfl fun h => ⟨h.failedURLs, h.completed⟩
  | queryDisk i =>
    show Carries R w (w.queryDisk i)
    have hPushed : ∀ (image : Option ι) memCache, Carries R w { w with
        memCache := memCache
        mainQueue := w.mainQueue ++ [.queried i image] } := by
      refine fun image memCache => .of_same rfl rfl fun h => ⟨h.failedURLs, ?_⟩
      intro blocks error j url hMem
      rcases List.mem_append.mp hMem with hOld | hNew
      · exact h.completed blocks error j url hOld
      · exact absurd (List.mem_singleton.mp hNew) (by simp)
    unfold queryDisk
    split
    · exact .of_same rfl rfl id
    · split_ifs
      · exact .of_same rfl rfl id
      · split
        · exact hPushed _ _
        · exact hPushed _ _

variable [DecidableEq ν]

theorem main_carries (h : w.Good []) (hUnfailed : w.Unfailed R) {block : MainBlock ι}
    {rest : List (MainBlock ι)} (hMain : w.mainQueue = block :: rest) :
    Carries R w (({ w with mainQueue := rest } : WebCache ν ι).main block) := by
  let popped : WebCache ν ι := { w with mainQueue := rest }
  have hPopped : Carries R w popped := .of_same rfl rfl fun h => ⟨h.failedURLs,
    fun blocks error i url hMem => h.completed blocks error i url
      (hMain ▸ List.mem_cons_of_mem block hMem)⟩
  have hAwaits : ∀ j, popped.awaits j + block.awaits j = w.awaits j := awaits_pop_main hMain
  have hHead : block ∈ w.mainQueue := hMain ▸ List.mem_cons_self
  refine hPopped.trans ?_
  cases block with
  | queried i image =>
    have hLess : popped.Good [] := h.move rfl (fun j => by have := hAwaits j; omega)
      (fun _ => rfl) (fun _ => rfl) h.registered h.handlers
    exact .queried hLess i image
  | completed blocks answer =>
    have hHand : popped.Good (blocks ++ []) := by
      refine h.move rfl (fun j => ?_) (fun _ => rfl) (fun _ => rfl) h.registered h.handlers
      have := hAwaits j
      rw [MainBlock.awaits] at this
      rw [List.append_nil, List.count_nil]
      omega
    refine .completed hHand fun i hi error url hError hURL => ?_
    exact hUnfailed.completed blocks error i url (hError ▸ hHead) hi hURL

/-- The threads carry on what has been started. -/
theorem background_carries (h : w.Good []) (hUnfailed : w.Unfailed R) {e : Event ν ι}
    (hView : e.view? = none) (hReliable : e.Reliable R w) (hStep : w.step e = some w') :
    Carries R w w' := by
  cases e with
  | setImageWithURL v url => exact absurd hView (by simp [Event.view?])
  | setImage v image => exact absurd hView (by simp [Event.view?])
  | io =>
    obtain ⟨block, rest, hIo, rfl⟩ := step_io hStep
    have hPopped : Carries R w ({ w with ioQueue := rest } : WebCache ν ι) :=
      .of_same rfl rfl fun h => ⟨h.failedURLs, h.completed⟩
    exact hPopped.trans io_carries
  | main =>
    obtain ⟨block, rest, hMain, rfl⟩ := step_main hStep
    exact main_carries h hUnfailed hMain
  | didComplete d answer =>
    obtain ⟨download, hDownload, -, -, rfl⟩ := step_didComplete hStep
    refine .of_same rfl rfl fun h' => ⟨h'.failedURLs, fun blocks error i url hMem hi hURL => ?_⟩
    rcases List.mem_append.mp hMem with hOld | hNew
    · exact h'.completed blocks error i url hOld hi hURL
    · obtain ⟨rfl, rfl⟩ := MainBlock.completed.inj (List.mem_singleton.mp hNew)
      have hOwn := h.handlers download (List.mem_of_getElem? hDownload) i hi
      obtain rfl := Option.some.inj (hURL.symm.trans hOwn)
      exact hReliable download hDownload
  | done d =>
    obtain ⟨download, -, -, -, rfl⟩ := step_done hStep
    exact .of_same rfl rfl fun h => ⟨h.failedURLs, h.completed⟩
  | completionBlock d =>
    obtain ⟨download, -, -, -, rfl⟩ := step_completionBlock hStep
    exact .of_same rfl rfl fun h => ⟨h.failedURLs, h.completed⟩
  | removeFromMemory | removeFromDisk =>
    obtain rfl := Option.some.inj hStep
    exact .of_same rfl rfl fun h => ⟨h.failedURLs, h.completed⟩

-- ---------------------------------------------------------------------------
-- What the views wait for
-- ---------------------------------------------------------------------------

/-- The views in `V` are never left without a load, or its picture. -/
structure Attends (R : String → Prop) (V : ν → Prop) (w : WebCache ν ι) : Prop where
  unfailed : w.Unfailed R
  owns : w.Owns
  waits : ∀ v, V v → w.Waits R v

variable {V : ν → Prop}

omit [DecidableEq ν] in
theorem Attends.launched (disk : String → Option ι) :
    (launched disk : WebCache ν ι).Attends R V where
  unfailed := ⟨by simp [WebCache.launched], by simp [WebCache.launched]⟩
  owns := fun v i hLoad => absurd hLoad (by simp [WebCache.launched])
  waits := fun v _ url hURL => absurd hURL (by simp [WebCache.launched])

omit [DecidableEq ν] in
theorem Attends.carried (h : w.Attends R V) (hGood : w.Good hand)
    (hDelivers : Delivers S w w') (hCarries : Carries R w w') : w'.Attends R V where
  unfailed := hCarries.unfailed h.unfailed
  owns v i hLoad := by
    obtain ⟨operation, hOperation, hView⟩ := h.owns v i (hDelivers.loadOperation v ▸ hLoad)
    obtain ⟨after, hAfter, hView', -, -⟩ := hCarries.operations i operation hOperation
    exact ⟨after, hAfter, hView'.trans hView⟩
  waits v hV url hURL hR hNonempty hNone := by
    have hBefore : (w.views v).image = none := by
      cases hImage : (w.views v).image with
      | none => rfl
      | some image =>
        have hStill := hCarries.image v (by rw [hImage]; rfl)
        rw [hNone] at hStill
        exact absurd hStill (by simp)
    rw [hDelivers.imageURL v] at hURL
    obtain ⟨i, operation, hOperation, rfl, hRunning⟩ := h.waits v hV url hURL hR hNonempty hBefore
    obtain ⟨-, -, hOwn⟩ := hGood.running i operation hOperation hRunning
    obtain ⟨after, hAfter, hView, -, hGoes⟩ := hCarries.operations i operation hOperation
    rcases hGoes hRunning with hStill | hImage | hNot
    · exact ⟨i, after, hAfter, hView, hStill⟩
    · rw [hNone] at hImage
      exact absurd hImage (by simp)
    · obtain rfl := Option.some.inj (hOwn.symm.trans hURL)
      exact absurd hR hNot

/-- The load that a view had is cancelled. The others have theirs. -/
theorem Attends.cancelImageLoad (h : w.Attends R V) (u : ν) :
    (w.cancelImageLoad u).Attends R fun v => V v ∧ v ≠ u := by
  rcases cancelImageLoad_cases w u with
    hSame | ⟨i, operation, downloads, table, hLoad, hOperation, hEq⟩
  · rw [hSame]
    exact ⟨h.unfailed, h.owns, fun v hV => h.waits v hV.1⟩
  · rw [hEq]
    obtain ⟨own, hOwn, hView⟩ := h.owns u i hLoad
    obtain rfl := Option.some.inj (hOperation.symm.trans hOwn)
    refine ⟨⟨h.unfailed.failedURLs, fun blocks error j url hMem hj hURL => ?_⟩,
      fun v j hj => ?_, fun v hV url hURL hR hNonempty hNone => ?_⟩
    · have hUrls : (w.operations.set i
          { operation with isCancelled := true, isRunning := false }).map (·.url) = w.urls :=
        map_set_of_eq hOperation rfl
      exact h.unfailed.completed blocks error j url hMem hj (hUrls ▸ hURL)
    · have hBefore : (w.views v).loadOperation = some j := by
        change (Function.update w.views u _ v).loadOperation = some j at hj
        rw [Function.update_apply] at hj
        split_ifs at hj
        exact hj
      obtain ⟨other, hOther, hSame⟩ := h.owns v j hBefore
      by_cases hEntry : i = j
      · subst hEntry
        obtain rfl := Option.some.inj (hOperation.symm.trans hOther)
        exact ⟨_, List.getElem?_set_self (List.getElem?_eq_some_iff.mp hOperation).1, hSame⟩
      · exact ⟨other, (List.getElem?_set_ne hEntry).trans hOther, hSame⟩
    · change (Function.update w.views u _ v).imageURL = some url at hURL
      change (Function.update w.views u _ v).image = none at hNone
      rw [Function.update_of_ne hV.2] at hURL hNone
      obtain ⟨j, other, hOther, hSame, hRunning⟩ := h.waits v hV.1 url hURL hR hNonempty hNone
      have hEntry : i ≠ j := by
        rintro rfl
        obtain rfl := Option.some.inj (hOperation.symm.trans hOther)
        exact hV.2 (hSame.symm.trans hView)
      exact ⟨j, other, (List.getElem?_set_ne hEntry).trans hOther, hSame, hRunning⟩

/-- The view gets its new operation. One that does not run was refused. -/
theorem Attends.created {u : ν} (h : w.Attends R fun v => V v ∧ v ≠ u) (hGood : w.Good [])
    (url : String) {isRunning : Bool} (hRefused : isRunning = false → url = "" ∨ ¬ R url) :
    (w.created u url isRunning).Attends R V := by
  refine ⟨⟨h.unfailed.failedURLs, fun blocks error i url' hMem hi hURL => ?_⟩,
    fun v i hLoad => ?_, fun v hV url' hURL hR hNonempty hNone => ?_⟩
  · have hAwaits := awaits_of_mem hMem i
    have hPos : 0 < blocks.count i := List.count_pos_iff.mpr hi
    exact h.unfailed.completed blocks error i url' hMem hi
      (hGood.urls_created (hPos.trans_le hAwaits) hURL)
  · rw [views_created] at hLoad
    split_ifs at hLoad with hSame
    · obtain rfl := Option.some.inj hLoad
      exact ⟨_, List.getElem?_concat_length, hSame.symm⟩
    · obtain ⟨operation, hOperation, hView⟩ := h.owns v i hLoad
      exact ⟨operation, (List.getElem?_append_left
        (List.getElem?_eq_some_iff.mp hOperation).1).trans hOperation, hView⟩
  · rw [views_created] at hURL hNone
    split_ifs at hURL hNone with hSame
    · obtain rfl := Option.some.inj hURL
      refine ⟨w.operations.length, _, List.getElem?_concat_length, hSame.symm, ?_⟩
      cases hFlag : isRunning with
      | true => rfl
      | false =>
        rcases hRefused hFlag with hEmpty | hNot
        · exact absurd hEmpty hNonempty
        · exact absurd hR hNot
    · obtain ⟨i, operation, hOperation, hView⟩ :=
        h.waits v ⟨hV, hSame⟩ url' hURL hR hNonempty hNone
      exact ⟨i, operation, (List.getElem?_append_left
        (List.getElem?_eq_some_iff.mp hOperation).1).trans hOperation, hView⟩

theorem Attends.setImageWithURL (h : w.Attends R V) (hGood : w.Good []) (u : ν) (url : String) :
    (w.setImageWithURL u url).Attends R V := by
  rw [setImageWithURL_eq]
  have hIdle := h.cancelImageLoad u
  obtain ⟨hGood, hQuiet, -⟩ := cancelImageLoad_spec (S := fun _ _ => True) hGood u
  generalize w.cancelImageLoad u = idle at hIdle hGood hQuiet ⊢
  rcases loadImage_cases idle u url with ⟨hRefused, hEq⟩ | ⟨-, ⟨image, -, hEq⟩ | hEq⟩
  · rw [hEq]
    exact hIdle.created hGood url fun _ => hRefused.imp_right (hIdle.unfailed.failedURLs url)
  · rw [hEq]
    have hCreated : (idle.created u url true).Attends R V :=
      hIdle.created hGood url fun hFlag => absurd hFlag (by simp)
    have hGood' := hGood.created hQuiet url true
    have hProceeds := queried_proceeds hGood' (.trivial _) (some image) fun _ _ _ _ => trivial
    exact hCreated.carried hGood' hProceeds.delivers (.queried hGood' _ _)
  · rw [hEq]
    have hCreated : (idle.created u url true).Attends R V :=
      hIdle.created hGood url fun hFlag => absurd hFlag (by simp)
    exact ⟨⟨hCreated.unfailed.failedURLs, hCreated.unfailed.completed⟩, hCreated.owns,
      hCreated.waits⟩

theorem Attends.step (h : w.Attends R V) (hSound : w.Sound fun _ _ => True) {e : Event ν ι}
    (hReliable : e.Reliable R w) (hNotSet : ∀ v, V v → ∀ image, e ≠ .setImage v image)
    (hStep : w.step e = some w') : w'.Attends R V := by
  cases e with
  | setImageWithURL u url =>
    obtain rfl := Option.some.inj hStep
    exact h.setImageWithURL hSound.good u url
  | setImage u image =>
    obtain rfl := Option.some.inj hStep
    refine ⟨⟨h.unfailed.failedURLs, h.unfailed.completed⟩, fun v i hLoad => ?_,
      fun v hV url hURL hR hNonempty hNone => ?_⟩
    · refine h.owns v i ?_
      rw [views_setImage] at hLoad
      split_ifs at hLoad with hSame
      · rw [hSame]
        exact hLoad
      · exact hLoad
    · have hOther : v ≠ u := fun hSame => hNotSet v hV image (hSame ▸ rfl)
      rw [views_setImage, if_neg hOther] at hURL hNone
      exact h.waits v hV url hURL hR hNonempty hNone
  | _ =>
    have hProceeds := background_proceeds hSound.good hSound.served rfl
      (Event.serves_trivial _ w) hStep
    exact h.carried hSound.good hProceeds.delivers
      (background_carries hSound.good h.unfailed rfl hReliable hStep)

-- ---------------------------------------------------------------------------
-- At rest
-- ---------------------------------------------------------------------------

/-- Nothing is on its way: no block waits on a queue, and no load waits for a download
that is still to be answered. -/
structure AtRest (w : WebCache ν ι) : Prop where
  ioQueue : w.ioQueue = []
  mainQueue : w.mainQueue = []
  downloads : ∀ download ∈ w.downloads,
    download.answered = true ∨ download.callbackBlocks = []

omit [DecidableEq ν] in
theorem AtRest.awaits (h : w.AtRest) (i : ℕ) : w.awaits i = 0 := by
  have hDownloads : ∀ download ∈ w.downloads, download.awaits i = 0 := by
    intro download hMem
    rw [SDWebImageDownloaderOperation.awaits]
    rcases h.downloads download hMem with hAnswered | hNobody
    · rw [if_pos hAnswered]
    · rw [hNobody]
      exact ite_self 0
  have hSum : (w.downloads.map (SDWebImageDownloaderOperation.awaits i)).sum = 0 :=
    List.sum_eq_zero (by simpa using hDownloads)
  rw [WebCache.awaits, h.ioQueue, h.mainQueue, hSum]
  rfl

omit [DecidableEq ν] in
/-- At rest no load is running, if none has been forgotten, so no view waits. -/
theorem Attends.shows (h : w.Attends R V) (hAccounted : w.Accounted []) (hRest : w.AtRest)
    (hV : V v) (hURL : (w.views v).imageURL = some url) (hR : R url) (hNonempty : url ≠ "") :
    (w.views v).image.isSome = true := by
  cases hImage : (w.views v).image with
  | some image => rfl
  | none =>
    obtain ⟨i, operation, hOperation, -, hRunning⟩ := h.waits v hV url hURL hR hNonempty hImage
    have hPos := hAccounted i operation hOperation hRunning
    rw [hRest.awaits, List.count_nil] at hPos
    omega

-- ---------------------------------------------------------------------------
-- The result
-- ---------------------------------------------------------------------------

/-- The server answers truly and reliably, and no load is forgotten. -/
def Event.Honest (S : String → ι → Prop) (R : String → Prop) (w : WebCache ν ι)
    (e : Event ν ι) : Prop :=
  e.Serves S w ∧ e.Reliable R w ∧ w.joinsLate e = false

/-- What holds as long as that is so. -/
structure Honest (S : String → ι → Prop) (R : String → Prop) (V : ν → Prop)
    (w : WebCache ν ι) : Prop where
  sound : w.Sound S
  accounted : w.Accounted []
  attends : w.Attends R V
  shows : ∀ v, V v → w.ShowsItsURL S v

omit [DecidableEq ν] in
theorem Honest.launched {disk : String → Option ι}
    (hDisk : ∀ url image, disk url = some image → S url image) :
    (launched disk : WebCache ν ι).Honest S R V where
  sound := .launched hDisk
  accounted i operation hOperation := absurd hOperation (by simp [WebCache.launched])
  attends := .launched disk
  shows _ _ := .launched disk

theorem Honest.step (h : w.Honest S R V) {e : Event ν ι} (hHonest : e.Honest S R w)
    (hNotSet : ∀ v, V v → ∀ image, e ≠ .setImage v image) (hStep : w.step e = some w') :
    w'.Honest S R V := by
  obtain ⟨hServes, hReliable, hLate⟩ := hHonest
  have hSound : w.Sound fun _ _ => True := ⟨h.sound.good, .trivial w⟩
  exact ⟨(h.sound.step hServes hStep).1, (accounted_step hSound h.accounted hStep).mpr hLate,
    h.attends.step hSound hReliable hNotSet hStep,
    fun v hV => (h.shows v hV).step h.sound hServes (hNotSet v hV) hStep⟩

omit [DecidableEq ν] in
theorem Honest.rested (h : w.Honest S R V) (hRest : w.AtRest) (hV : V v)
    (hURL : (w.views v).imageURL = some url) (hR : R url) (hNonempty : url ≠ "") :
    ∃ image, (w.views v).image = some image ∧ S url image := by
  have hShown := h.attends.shows h.accounted hRest hV hURL hR hNonempty
  obtain ⟨image, hImage⟩ := Option.isSome_iff_exists.mp hShown
  obtain ⟨url', hURL', hServed⟩ := h.shows v hV image hImage
  obtain rfl := Option.some.inj (hURL.symm.trans hURL')
  exact ⟨image, hImage, hServed⟩

/--
**Pictures arrive.** Let the server have the pictures in `R`, and let no load join a
download that has been answered. Whenever nothing is on its way any more, a view that
is not assigned pictures directly shows the one of the URL it was given last, if that
is in `R`: whatever was cancelled, shared, dropped from the caches or not found for
others on the way.
-/
theorem rested_view_shows_url {disk : String → Option ι} {es : List (Event ν ι)} (v : ν)
    (hDisk : ∀ url image, disk url = some image → S url image)
    (hHonest : Along WebCache.step (fun w e => e.Honest S R w) (WebCache.launched disk) es)
    (hNotSet : ∀ image, .setImage v image ∉ es) :
    Always WebCache.step (fun w => w.AtRest → ∀ url, (w.views v).imageURL = some url → R url →
      url ≠ "" → ∃ image, (w.views v).image = some image ∧ S url image)
      (WebCache.launched disk) es := by
  have hAlong : Along WebCache.step (fun w e => e.Honest S R w ∧ ∀ image, e ≠ .setImage v image)
      (WebCache.launched disk) es :=
    hHonest.and_mem fun e hMem image hEq => hNotSet image (hEq ▸ hMem)
  have hAlways : Always WebCache.step (fun w : WebCache ν ι => w.Honest S R (· = v))
      (WebCache.launched disk) es :=
    .of_invariant (fun w e w' h hCond hStep => h.step hCond.1
      (fun u hu image => hu ▸ hCond.2 image) hStep) (.launched hDisk) hAlong
  exact hAlways.mono fun w h hRest url => h.rested hRest rfl

instance Event.decidableReliable [DecidablePred R] (w : WebCache ν ι) (e : Event ν ι) :
    Decidable (e.Reliable R w) :=
  match e with
  | .didComplete d (.error _) =>
    inferInstanceAs (Decidable (∀ download ∈ w.downloads[d]?, ¬ R download.url))
  | .didComplete _ (.ok _) | .setImageWithURL _ _ | .setImage _ _ | .io | .main | .done _
  | .completionBlock _ | .removeFromMemory _ | .removeFromDisk _ => isTrue trivial

instance Event.decidableHonest [DecidableRel S] [DecidablePred R] (w : WebCache ν ι)
    (e : Event ν ι) : Decidable (e.Honest S R w) :=
  inferInstanceAs (Decidable (e.Serves S w ∧ e.Reliable R w ∧ w.joinsLate e = false))

/-- A view is given a URL that the server does not have, and then another one, whose
download it shares. -/
def annIsMissing : List (Event ℕ String) :=
  [.setImageWithURL 0 "ann.jpg", .io, .main, .setImageWithURL 1 "bob.jpg", .io, .main,
   .didComplete 0 (.error ⟨0⟩), .main, .setImageWithURL 0 "bob.jpg", .io, .main,
   .didComplete 1 (.ok "bob.jpg"), .done 0, .main, .io, .done 1, .io]

theorem annIsMissing_rests :
    ((run WebCache.step (WebCache.launched fun _ => none) annIsMissing).map fun w =>
      ((w.views 0).image, w.failedURLs)) = some (some "bob.jpg", ["ann.jpg"]) ∧
    Always WebCache.step (fun w => w.AtRest → ∀ url, (w.views 0).imageURL = some url →
      url = "bob.jpg" → url ≠ "" → ∃ image, (w.views 0).image = some image ∧ image = url)
      (WebCache.launched fun _ => none) annIsMissing := by
  have hServer : Along WebCache.step (fun w e => e.Honest (fun url image => image = url)
      (fun url => url = "bob.jpg") w) (WebCache.launched fun _ => none) annIsMissing := by
    decide
  refine ⟨by decide, rested_view_shows_url 0 (fun _ _ h => absurd h (by simp)) hServer ?_⟩
  intro image
  simp [annIsMissing]

end WebCache

end AggroApp
