import AggroApp.Async.Potential
import AggroApp.Model.WebCache
import Mathlib.Algebra.Order.BigOperators.Group.List
import Mathlib.Algebra.Order.Group.Nat

/-!
# AggroApp — the loads of the image views

Loads are cancelled, share downloads, and are answered on three threads in any order.
A load operation that is running is in exactly one place: in one of the queues, or
among the callbacks of a download. `awaits` counts them, and the operations that the
block at work has still to call are its `hand`.
-/

namespace AggroApp

open Async

variable {ν ι : Type*} {S : String → ι → Prop}

-- ---------------------------------------------------------------------------
-- Where an operation is
-- ---------------------------------------------------------------------------

def IOBlock.awaits (i : ℕ) : IOBlock ι → ℕ
  | .queryDisk j => if j = i then 1 else 0
  | .storeImage _ _ => 0

def MainBlock.awaits (i : ℕ) : MainBlock ι → ℕ
  | .queried j _ => if j = i then 1 else 0
  | .completed callbackBlocks _ => callbackBlocks.count i

/-- The callbacks of a download that has been answered have been collected. -/
def SDWebImageDownloaderOperation.awaits (i : ℕ) (download : SDWebImageDownloaderOperation) : ℕ :=
  if download.answered then 0 else download.callbackBlocks.count i

namespace WebCache

variable {w w' w'' : WebCache ν ι} {hand : List ℕ} {i j d : ℕ} {url : String} {v : ν}

def awaits (w : WebCache ν ι) (i : ℕ) : ℕ :=
  (w.ioQueue.map (IOBlock.awaits i)).sum + (w.mainQueue.map (MainBlock.awaits i)).sum +
    (w.downloads.map (SDWebImageDownloaderOperation.awaits i)).sum

/-- A block that is popped takes along what it awaits. -/
theorem awaits_pop_io {block : IOBlock ι} {rest : List (IOBlock ι)}
    (hIo : w.ioQueue = block :: rest) (j : ℕ) :
    ({ w with ioQueue := rest } : WebCache ν ι).awaits j + block.awaits j = w.awaits j := by
  simp only [awaits, hIo, List.map_cons, List.sum_cons]
  omega

theorem awaits_pop_main {block : MainBlock ι} {rest : List (MainBlock ι)}
    (hMain : w.mainQueue = block :: rest) (j : ℕ) :
    ({ w with mainQueue := rest } : WebCache ν ι).awaits j + block.awaits j = w.awaits j := by
  simp only [awaits, hMain, List.map_cons, List.sum_cons]
  omega

/-- A block on the main queue counts for its operations. -/
theorem awaits_of_mem {block : MainBlock ι} (hMem : block ∈ w.mainQueue) (i : ℕ) :
    block.awaits i ≤ w.awaits i := by
  have hSum : block.awaits i ≤ (w.mainQueue.map (MainBlock.awaits i)).sum :=
    List.le_sum_of_mem (List.mem_map_of_mem hMem)
  simp only [awaits]
  omega

/-- The URLs of the operations, which never change. -/
def urls (w : WebCache ν ι) : List String := w.operations.map (·.url)

theorem urls_eq_some : w.urls[i]? = some url ↔
    ∃ operation, w.operations[i]? = some operation ∧ operation.url = url := by
  rw [urls, List.getElem?_map, Option.map_eq_some_iff]

theorem length_urls (w : WebCache ν ι) : w.urls.length = w.operations.length := List.length_map _

structure Good (w : WebCache ν ι) (hand : List ℕ) : Prop where
  fresh : ∀ i, w.operations.length ≤ i → w.awaits i + hand.count i = 0
  once : ∀ i operation, w.operations[i]? = some operation → operation.isCancelled = false →
    w.awaits i + hand.count i ≤ operation.isRunning.toNat
  /-- A view has cancelled all its operations but the last. -/
  running : ∀ i operation, w.operations[i]? = some operation → operation.isRunning = true →
    operation.isCancelled = false ∧ (w.views operation.view).loadOperation = some i ∧
      (w.views operation.view).imageURL = some operation.url
  registered : ∀ url d, w.urlOperations url = some d →
    ∃ download, w.downloads[d]? = some download ∧ download.url = url
  handlers : ∀ download ∈ w.downloads, ∀ i ∈ download.callbackBlocks,
    w.urls[i]? = some download.url

/-- Each picture on its way was served at the URL it is for. -/
structure Served (S : String → ι → Prop) (w : WebCache ν ι) : Prop where
  memory : ∀ url image, w.memCache url = some image → S url image
  disk : ∀ url image, w.diskCache url = some image → S url image
  stored : ∀ url image, .storeImage url image ∈ w.ioQueue → S url image
  queried : ∀ i image url, .queried i (some image) ∈ w.mainQueue → w.urls[i]? = some url →
    S url image
  completed : ∀ blocks image i url, .completed blocks (.ok image) ∈ w.mainQueue → i ∈ blocks →
    w.urls[i]? = some url → S url image

theorem Served.trivial (w : WebCache ν ι) : w.Served fun _ _ => True :=
  ⟨fun _ _ _ => True.intro, fun _ _ _ => True.intro, fun _ _ _ => True.intro,
    fun _ _ _ _ _ => True.intro, fun _ _ _ _ _ _ _ => True.intro⟩

/-- No operation of the view is running. -/
def Quiet (v : ν) (w : WebCache ν ι) : Prop :=
  ∀ (i : ℕ) operation, w.operations[i]? = some operation → operation.view = v →
    operation.isRunning = false

/-- What the threads do to the views: a view whose load is running may get a picture
that was served at its URL. -/
structure Delivers (S : String → ι → Prop) (w w' : WebCache ν ι) : Prop where
  loadOperation : ∀ v, (w'.views v).loadOperation = (w.views v).loadOperation
  imageURL : ∀ v, (w'.views v).imageURL = (w.views v).imageURL
  image : ∀ v, (w'.views v).image = (w.views v).image ∨ ∃ image url,
    (w'.views v).image = some image ∧ (w.views v).imageURL = some url ∧ S url image ∧ ¬ w.Quiet v
  quiet : ∀ v, w.Quiet v → w'.Quiet v

namespace Delivers

theorem refl (w : WebCache ν ι) : Delivers S w w :=
  ⟨fun _ => rfl, fun _ => rfl, fun _ => Or.inl rfl, fun _ => id⟩

theorem trans (h : Delivers S w w') (h' : Delivers S w' w'') : Delivers S w w'' where
  loadOperation v := (h'.loadOperation v).trans (h.loadOperation v)
  imageURL v := (h'.imageURL v).trans (h.imageURL v)
  quiet v hQuiet := h'.quiet v (h.quiet v hQuiet)
  image v := by
    rcases h'.image v with hSame | ⟨image, url, hImage, hURL, hServed, hBusy⟩
    · rw [hSame]
      exact h.image v
    · rw [h.imageURL v] at hURL
      exact Or.inr ⟨image, url, hImage, hURL, hServed, fun hQuiet => hBusy (h.quiet v hQuiet)⟩

/-- The views are left alone, and no operation is started. -/
theorem of_views (hViews : w'.views = w.views) (hQuiet : ∀ v, w.Quiet v → w'.Quiet v) :
    Delivers S w w' :=
  ⟨fun _ => by rw [hViews], fun _ => by rw [hViews], fun _ => Or.inl (by rw [hViews]), hQuiet⟩

end Delivers

-- ---------------------------------------------------------------------------
-- Frames
-- ---------------------------------------------------------------------------

/-- The operations go from one place to another, or to the block at work. -/
theorem Good.move {hand' : List ℕ} (h : w.Good hand) (hOperations : w'.operations = w.operations)
    (hAwaits : ∀ i, w'.awaits i + hand'.count i ≤ w.awaits i + hand.count i)
    (hLoad : ∀ v, (w'.views v).loadOperation = (w.views v).loadOperation)
    (hImageURL : ∀ v, (w'.views v).imageURL = (w.views v).imageURL)
    (hRegistered : ∀ url d, w'.urlOperations url = some d →
      ∃ download, w'.downloads[d]? = some download ∧ download.url = url)
    (hHandlers : ∀ download ∈ w'.downloads, ∀ i ∈ download.callbackBlocks,
      w.urls[i]? = some download.url) : w'.Good hand' where
  fresh i hi := Nat.eq_zero_of_le_zero ((hAwaits i).trans (h.fresh i (hOperations ▸ hi)).le)
  once i operation hi hCancelled :=
    (hAwaits i).trans (h.once i operation (hOperations ▸ hi) hCancelled)
  running i operation hi hRunning := by
    rw [hLoad, hImageURL]
    exact h.running i operation (hOperations ▸ hi) hRunning
  registered := hRegistered
  handlers := by
    rw [urls, hOperations]
    exact hHandlers

theorem Served.congr (h : w.Served S) (hMemory : w'.memCache = w.memCache)
    (hDisk : w'.diskCache = w.diskCache) (hIo : w'.ioQueue = w.ioQueue)
    (hMain : w'.mainQueue = w.mainQueue) (hUrls : w'.urls = w.urls) : w'.Served S where
  memory := hMemory ▸ h.memory
  disk := hDisk ▸ h.disk
  stored := hIo ▸ h.stored
  queried := hMain ▸ hUrls ▸ h.queried
  completed := hMain ▸ hUrls ▸ h.completed

/-- A download goes on under its URL, with no more callbacks than before. -/
theorem Good.set_download (h : w.Good hand) {download : SDWebImageDownloaderOperation}
    (hDownload : w.downloads[d]? = some download) (download' : SDWebImageDownloaderOperation)
    (hURL : download'.url = download.url)
    (hBlocks : ∀ i ∈ download'.callbackBlocks, i ∈ download.callbackBlocks) :
    (∀ url e, w.urlOperations url = some e →
      ∃ x, (w.downloads.set d download')[e]? = some x ∧ x.url = url) ∧
    ∀ x ∈ w.downloads.set d download', ∀ i ∈ x.callbackBlocks, w.urls[i]? = some x.url := by
  constructor
  · intro url e he
    obtain ⟨old, hEntry, hSame⟩ := h.registered url e he
    by_cases hEq : d = e
    · subst hEq
      obtain rfl := Option.some.inj (hDownload.symm.trans hEntry)
      exact ⟨download', List.getElem?_set_self (List.getElem?_eq_some_iff.mp hDownload).1,
        hURL.trans hSame⟩
    · exact ⟨old, (List.getElem?_set_ne hEq).trans hEntry, hSame⟩
  · intro x hMem i hi
    obtain ⟨e, he⟩ := List.getElem?_of_mem hMem
    rcases getElem?_set_cases he with ⟨-, rfl⟩ | ⟨-, hOld⟩
    · rw [hURL]
      exact h.handlers download (List.mem_of_getElem? hDownload) i (hBlocks i hi)
    · exact h.handlers x (List.mem_of_getElem? hOld) i hi

/-- An entry that is left when another one has been removed. -/
theorem eq_some_of_removed {α : Type*} {table : String → Option α} {u : String} {x : α}
    (h : Function.update table url none u = some x) : table u = some x := by
  rw [Function.update_apply] at h
  split_ifs at h
  exact h

/-- A picture is added to what one of the caches holds. -/
theorem served_update {cache : String → Option ι} {image : ι}
    (h : ∀ url image, cache url = some image → S url image) (hNew : S url image) :
    ∀ u x, Function.update cache url (some image) u = some x → S u x := by
  intro u x hx
  rw [Function.update_apply] at hx
  split_ifs at hx with hSame
  · rwa [hSame, ← Option.some.inj hx]
  · exact h u x hx

-- ---------------------------------------------------------------------------
-- The end of an operation
-- ---------------------------------------------------------------------------

theorem urls_modify {f : SDWebImageCombinedOperation ν → SDWebImageCombinedOperation ν}
    (hf : ∀ operation, (f operation).url = operation.url) (w : WebCache ν ι) (i : ℕ) :
    ({ w with operations := w.operations.modify i f } : WebCache ν ι).urls = w.urls :=
  map_modify_of_eq hf w.operations i

theorem urls_safelyRemove (w : WebCache ν ι) (i : ℕ) :
    (w.safelyRemoveOperationFromRunning i).urls = w.urls := by
  refine urls_modify ?_ w i
  exact fun _ => rfl

theorem Good.safelyRemove (h : w.Good (i :: hand)) :
    (w.safelyRemoveOperationFromRunning i).Good hand where
  fresh j hj := by
    have hFresh := h.fresh j (by rwa [safelyRemoveOperationFromRunning, List.length_modify] at hj)
    rw [List.count_cons] at hFresh
    show w.awaits j + hand.count j = 0
    omega
  once j operation hj hCancelled := by
    show w.awaits j + hand.count j ≤ _
    rcases getElem?_modify_cases hj with ⟨rfl, old, hOld, rfl⟩ | ⟨hNe, hOld⟩
    · have hOnce := h.once j old hOld hCancelled
      have hBool := Bool.toNat_le old.isRunning
      rw [List.count_cons_self] at hOnce
      omega
    · have hOnce := h.once j operation hOld hCancelled
      rwa [List.count_cons_of_ne (Ne.symm hNe)] at hOnce
  running j operation hj hRunning := by
    rcases getElem?_modify_cases hj with ⟨rfl, old, -, rfl⟩ | ⟨-, hOld⟩
    · exact absurd hRunning (by simp)
    · exact h.running j operation hOld hRunning
  registered := h.registered
  handlers := by
    rw [urls_safelyRemove]
    exact h.handlers

theorem Served.safelyRemove (h : w.Served S) (i : ℕ) :
    (w.safelyRemoveOperationFromRunning i).Served S :=
  h.congr rfl rfl rfl rfl (urls_safelyRemove w i)

theorem Delivers.safelyRemove (w : WebCache ν ι) (i : ℕ) :
    Delivers S w (w.safelyRemoveOperationFromRunning i) := by
  refine .of_views rfl fun v hQuiet j operation hj hView => ?_
  rcases getElem?_modify_cases hj with ⟨rfl, old, -, rfl⟩ | ⟨-, hOld⟩
  · rfl
  · exact hQuiet j operation hOld hView

/-- What holds after a block, or a part of it, that has still to call `hand`. -/
structure Proceeds (S : String → ι → Prop) (hand : List ℕ) (w w' : WebCache ν ι) : Prop where
  good : w'.Good hand
  served : w'.Served S
  urls : w'.urls = w.urls
  delivers : Delivers S w w'

theorem safelyRemove_proceeds (h : w.Good (i :: hand)) (hServed : w.Served S) :
    Proceeds S hand w (w.safelyRemoveOperationFromRunning i) :=
  ⟨h.safelyRemove, hServed.safelyRemove i, urls_safelyRemove w i, .safelyRemove w i⟩

-- ---------------------------------------------------------------------------
-- The disk
-- ---------------------------------------------------------------------------

theorem io_proceeds (h : w.Good []) (hServed : w.Served S) {block : IOBlock ι}
    {rest : List (IOBlock ι)} (hIo : w.ioQueue = block :: rest) :
    Proceeds S [] w (({ w with ioQueue := rest } : WebCache ν ι).io block) := by
  let popped : WebCache ν ι := { w with ioQueue := rest }
  have hAwaits : ∀ j, popped.awaits j + block.awaits j = w.awaits j := awaits_pop_io hIo
  have hPopped : popped.Served S :=
    ⟨hServed.memory, hServed.disk, fun url image hMem => hServed.stored url image
      (hIo ▸ List.mem_cons_of_mem block hMem), hServed.queried, hServed.completed⟩
  have hLess : popped.Good [] :=
    h.move rfl (fun j => by have := hAwaits j; omega) (fun _ => rfl) (fun _ => rfl) h.registered
      h.handlers
  cases block with
  | storeImage url image =>
    have hNew : S url image := hServed.stored url image (hIo ▸ List.mem_cons_self)
    exact ⟨hLess.move rfl (fun _ => Nat.le_refl _) (fun _ => rfl) (fun _ => rfl) h.registered
      h.handlers, ⟨hPopped.memory, served_update hPopped.disk hNew, hPopped.stored,
      hPopped.queried, hPopped.completed⟩, rfl, .of_views rfl fun _ => id⟩
  | queryDisk i =>
    show Proceeds S [] w (popped.queryDisk i)
    unfold queryDisk
    split
    · exact ⟨hLess, hPopped, rfl, .of_views rfl fun _ => id⟩
    · rename_i operation hOperation
      have hURL : w.urls[i]? = some operation.url :=
        urls_eq_some.mpr ⟨operation, hOperation, rfl⟩
      have hPushed : ∀ (image : Option ι) memCache,
          ({ popped with
            memCache := memCache
            mainQueue := w.mainQueue ++ [.queried i image] } : WebCache ν ι).Good [] := by
        refine fun image memCache => h.move rfl (fun j => ?_) (fun _ => rfl) (fun _ => rfl)
          h.registered h.handlers
        have := hAwaits j
        simp only [popped, awaits, IOBlock.awaits, sum_map_concat, MainBlock.awaits] at this ⊢
        omega
      have hQueried : ∀ (image : Option ι), (∀ x ∈ image, S operation.url x) → ∀ j x url,
          MainBlock.queried j (some x) ∈ w.mainQueue ++ [.queried i image] →
          w.urls[j]? = some url → S url x := by
        intro image hImage j x url hMem hSame
        rcases List.mem_append.mp hMem with hOld | hNew
        · exact hServed.queried j x url hOld hSame
        · obtain ⟨rfl, rfl⟩ := MainBlock.queried.inj (List.mem_singleton.mp hNew)
          obtain rfl := Option.some.inj (hURL.symm.trans hSame)
          exact hImage x rfl
      have hCompleted : ∀ (image : Option ι) blocks x j url,
          MainBlock.completed blocks (.ok x) ∈ w.mainQueue ++ [.queried i image] → j ∈ blocks →
          w.urls[j]? = some url → S url x := by
        intro image blocks x j url hMem
        rcases List.mem_append.mp hMem with hOld | hNew
        · exact hServed.completed blocks x j url hOld
        · exact absurd (List.mem_singleton.mp hNew) (by simp)
      split_ifs
      · exact ⟨hLess, hPopped, rfl, .of_views rfl fun _ => id⟩
      · split
        · rename_i image hDisk
          have hImage : S operation.url image := hServed.disk operation.url image hDisk
          refine ⟨hPushed (some image) _, ⟨served_update hServed.memory hImage, hServed.disk,
            hPopped.stored, hQueried (some image) fun x hx => ?_, hCompleted (some image)⟩, rfl,
            .of_views rfl fun _ => id⟩
          rwa [← Option.some.inj hx]
        · exact ⟨hPushed none w.memCache, ⟨hServed.memory, hServed.disk, hPopped.stored,
            hQueried none (by simp), hCompleted none⟩, rfl, .of_views rfl fun _ => id⟩

-- ---------------------------------------------------------------------------
-- A picture for a view
-- ---------------------------------------------------------------------------

variable [DecidableEq ν]

theorem views_setImage (w : WebCache ν ι) (v u : ν) (image : Option ι) :
    (w.setImage v image).views u =
      if u = v then { w.views v with image } else w.views u :=
  Function.update_apply _ _ _ _

theorem Good.setImage (h : w.Good hand) (v : ν) (image : Option ι) :
    (w.setImage v image).Good hand := by
  refine h.move rfl (fun _ => Nat.le_refl _) (fun u => ?_) (fun u => ?_) h.registered h.handlers
  all_goals
    rw [views_setImage]
    split_ifs with hSame
    · rw [hSame]
    · rfl

/-- What the callback does, for an operation that the block at work still has to call:
it has not ended, so if it has not been cancelled it is the last of its view. -/
theorem callCompletionBlock_spec (h : w.Good (i :: hand)) {image : Option ι}
    (hImage : ∀ url, w.urls[i]? = some url → ∀ x ∈ image, S url x) :
    (∃ views, w.callCompletionBlock i image = { w with views }) ∧
      (w.callCompletionBlock i image).Good (i :: hand) ∧
      Delivers S w (w.callCompletionBlock i image) := by
  unfold callCompletionBlock
  split
  · rename_i operation x hOperation
    split_ifs with hCancelled
    · exact ⟨⟨w.views, rfl⟩, h, .refl w⟩
    · refine ⟨⟨_, rfl⟩, h.setImage _ _, ?_⟩
      have hOnce := h.once i operation hOperation (by simpa using hCancelled)
      rw [List.count_cons_self] at hOnce
      have hRunning : operation.isRunning = true := by
        cases hFlag : operation.isRunning with
        | false => rw [hFlag, Bool.toNat_false] at hOnce; omega
        | true => rfl
      obtain ⟨-, -, hURL⟩ := h.running i operation hOperation hRunning
      refine ⟨fun u => ?_, fun u => ?_, fun u => ?_, fun u hQuiet => hQuiet⟩
      · rw [views_setImage]
        split_ifs with hSame
        · rw [hSame]
        · rfl
      · rw [views_setImage]
        split_ifs with hSame
        · rw [hSame]
        · rfl
      · rw [views_setImage]
        split_ifs with hSame
        · subst hSame
          refine Or.inr ⟨x, operation.url, rfl, hURL, ?_, fun hQuiet => ?_⟩
          · exact hImage operation.url (urls_eq_some.mpr ⟨operation, hOperation, rfl⟩) x rfl
          · rw [hQuiet i operation hOperation rfl] at hRunning
            exact absurd hRunning (by simp)
        · exact Or.inl rfl
  · exact ⟨⟨w.views, rfl⟩, h, .refl w⟩

-- ---------------------------------------------------------------------------
-- Joining a download
-- ---------------------------------------------------------------------------

omit [DecidableEq ν]

theorem joinable_eq_some (h : w.joinable url = some d) :
    w.urlOperations url = some d ∧ ∃ download, w.downloads[d]? = some download ∧
      download.isFinished = false ∧ download.isCancelled = false := by
  obtain ⟨hRegistered, hAny⟩ := Option.filter_eq_some_iff.mp h
  obtain ⟨download, hDownload, hFlags⟩ := (Option.any_eq_true _ _).mp hAny
  simp only [Bool.and_eq_true, Bool.not_eq_true'] at hFlags
  exact ⟨hRegistered, download, hDownload, hFlags⟩

/-- The download to join has been answered: its callbacks have been collected, though
it is not done. -/
def late (w : WebCache ν ι) (url : String) : Bool :=
  (w.joinable url).any fun d => w.downloads[d]?.any (·.answered)

theorem urls_downloadImage (w : WebCache ν ι) (url : String) (i : ℕ) :
    (w.downloadImage url i).urls = w.urls := by
  unfold downloadImage
  split
  all_goals
    refine urls_modify ?_ w i
    exact fun _ => rfl

theorem awaits_downloadImage (w : WebCache ν ι) (url : String) (i j : ℕ) :
    (w.downloadImage url i).awaits j =
      w.awaits j + if j = i ∧ w.late url = false then 1 else 0 := by
  unfold downloadImage
  split
  · rename_i d hJoin
    obtain ⟨-, download, hDownload, -, -⟩ := joinable_eq_some hJoin
    have hLate : w.late url = download.answered := by
      rw [late, hJoin, Option.any_some, hDownload, Option.any_some]
    have hAdded : (download.addHandlers i).awaits j =
        download.awaits j + if j = i ∧ w.late url = false then 1 else 0 := by
      rw [hLate, SDWebImageDownloaderOperation.awaits, SDWebImageDownloaderOperation.awaits,
        SDWebImageDownloaderOperation.addHandlers]
      cases hAnswered : download.answered with
      | true => simp
      | false =>
        rw [List.count_append, List.count_singleton]
        simp only [and_true, Bool.false_eq_true, if_false, beq_iff_eq, eq_comm (a := i)]
    have hSum := sum_map_modify (w := SDWebImageDownloaderOperation.awaits j) hDownload
      (·.addHandlers i)
    simp only [awaits]
    omega
  · rename_i hJoin
    have hLate : w.late url = false := by
      rw [late, hJoin, Option.any_none]
    have hNew : (⟨url, [i], false, false, false, true⟩ :
        SDWebImageDownloaderOperation).awaits j = if j = i then 1 else 0 := by
      rw [SDWebImageDownloaderOperation.awaits, if_neg (by simp), List.count_singleton]
      simp only [beq_iff_eq, eq_comm (a := i)]
    simp only [awaits, sum_map_concat, hLate, hNew, and_true]
    omega

/-- What joining changes in the operations: nothing but the token. -/
theorem operations_downloadImage {operation : SDWebImageCombinedOperation ν}
    (h : (w.downloadImage url i).operations[j]? = some operation) :
    ∃ old, w.operations[j]? = some old ∧ operation.view = old.view ∧ operation.url = old.url ∧
      operation.isCancelled = old.isCancelled ∧ operation.isRunning = old.isRunning := by
  have hModify : (w.downloadImage url i).operations =
      w.operations.modify i fun operation => { operation with downloadToken := true } := by
    unfold downloadImage
    split <;> rfl
  rw [hModify] at h
  rcases getElem?_modify_cases h with ⟨rfl, old, hOld, rfl⟩ | ⟨-, hOld⟩
  · exact ⟨old, hOld, rfl, rfl, rfl, rfl⟩
  · exact ⟨operation, hOld, rfl, rfl, rfl, rfl⟩

theorem Good.downloadImage (h : w.Good (i :: hand)) (hURL : w.urls[i]? = some url) :
    (w.downloadImage url i).Good hand := by
  have hCount : ∀ j, (w.downloadImage url i).awaits j + hand.count j ≤
      w.awaits j + (i :: hand).count j := by
    intro j
    rw [awaits_downloadImage, List.count_cons]
    simp only [beq_iff_eq, eq_comm (a := i)]
    split_ifs <;> omega
  refine ⟨fun j hj => ?_, fun j operation hj hCancelled => ?_, fun j operation hj hRunning => ?_,
    fun u d hd => ?_, fun download hMem j hj => ?_⟩
  · have hLength : w.operations.length ≤ j := by
      have := congrArg List.length (urls_downloadImage w url i)
      rw [urls, urls, List.length_map, List.length_map] at this
      omega
    have := h.fresh j hLength
    have := hCount j
    omega
  · obtain ⟨old, hOld, -, -, hSame, hFlag⟩ := operations_downloadImage hj
    rw [hFlag]
    exact (hCount j).trans (h.once j old hOld (hSame ▸ hCancelled))
  · obtain ⟨old, hOld, hView, hURL', hSame, hFlag⟩ := operations_downloadImage hj
    rw [hView, hURL', hSame]
    have hViews : (w.downloadImage url i).views = w.views := by
      unfold WebCache.downloadImage
      split <;> rfl
    rw [hViews]
    exact h.running j old hOld (hFlag ▸ hRunning)
  · unfold WebCache.downloadImage at hd ⊢
    split at hd
    · rename_i d' hJoin
      obtain ⟨download, hDownload, hSame⟩ := h.registered u d hd
      show ∃ download, (w.downloads.modify d' (·.addHandlers i))[d]? = some download ∧ _
      by_cases hEq : d' = d
      · refine ⟨download.addHandlers i, ?_, hSame⟩
        rw [hEq, List.getElem?_modify_eq, hDownload]
        rfl
      · exact ⟨download, (List.getElem?_modify_ne _ _ hEq).trans hDownload, hSame⟩
    · show ∃ download, (w.downloads ++ [_])[d]? = some download ∧ _
      change Function.update w.urlOperations url (some w.downloads.length) u = some d at hd
      rw [Function.update_apply] at hd
      split_ifs at hd with hSame
      · obtain rfl := Option.some.inj hd
        exact ⟨_, List.getElem?_concat_length, hSame.symm⟩
      · obtain ⟨download, hDownload, hSame'⟩ := h.registered u d hd
        have hLt : d < w.downloads.length := (List.getElem?_eq_some_iff.mp hDownload).1
        exact ⟨download, (List.getElem?_append_left hLt).trans hDownload, hSame'⟩
  · rw [urls_downloadImage]
    unfold WebCache.downloadImage at hMem
    split at hMem
    · rename_i d' hJoin
      obtain ⟨hRegistered, joined, hJoined, -, -⟩ := joinable_eq_some hJoin
      obtain ⟨joined', hJoined', hSame⟩ := h.registered url d' hRegistered
      obtain rfl := Option.some.inj (hJoined.symm.trans hJoined')
      obtain ⟨k, hk⟩ := List.getElem?_of_mem hMem
      rcases getElem?_modify_cases hk with ⟨rfl, old, hOld, rfl⟩ | ⟨-, hOld⟩
      · obtain rfl := Option.some.inj (hJoined.symm.trans hOld)
        rcases List.mem_append.mp hj with hOlder | hNew
        · exact h.handlers joined (List.mem_of_getElem? hOld) j hOlder
        · rw [List.mem_singleton.mp hNew, hURL]
          exact congrArg some hSame.symm
      · exact h.handlers download (List.mem_of_getElem? hOld) j hj
    · rcases List.mem_append.mp hMem with hOld | hNew
      · exact h.handlers download hOld j hj
      · obtain rfl := List.mem_singleton.mp hNew
        rw [List.mem_singleton.mp hj]
        exact hURL

theorem Served.downloadImage (h : w.Served S) (url : String) (i : ℕ) :
    (w.downloadImage url i).Served S := by
  have hUrls := urls_downloadImage w url i
  unfold WebCache.downloadImage at hUrls ⊢
  split at hUrls
  · exact h.congr rfl rfl rfl rfl hUrls
  · exact h.congr rfl rfl rfl rfl hUrls

theorem Delivers.downloadImage (w : WebCache ν ι) (url : String) (i : ℕ) :
    Delivers S w (w.downloadImage url i) := by
  refine .of_views ?_ fun v hQuiet j operation hj hView => ?_
  · unfold WebCache.downloadImage
    split <;> rfl
  · obtain ⟨old, hOld, hView', -, -, hFlag⟩ := operations_downloadImage hj
    rw [hFlag]
    exact hQuiet j old hOld (hView' ▸ hView)

end WebCache

-- ---------------------------------------------------------------------------
-- Cancelling
-- ---------------------------------------------------------------------------

namespace SDWebImageDownloaderOperation

theorem cancel_spec (download : SDWebImageDownloaderOperation) (token : ℕ) :
    (download.cancel token).1.url = download.url ∧
      (download.cancel token).1.answered = download.answered ∧
      (download.cancel token).1.callbackBlocks = download.callbackBlocks.filter (· ≠ token) := by
  simp only [cancel]
  split_ifs with hEmpty
  · unfold cancelInternal
    split_ifs
    · exact ⟨rfl, rfl, rfl⟩
    · exact ⟨rfl, rfl, (List.isEmpty_iff.mp hEmpty).symm⟩
  · exact ⟨rfl, rfl, rfl⟩

theorem awaits_cancel (download : SDWebImageDownloaderOperation) (token j : ℕ) :
    (download.cancel token).1.awaits j = if j = token then 0 else download.awaits j := by
  obtain ⟨-, hAnswered, hBlocks⟩ := download.cancel_spec token
  rw [awaits, awaits, hAnswered, hBlocks]
  by_cases hSame : j = token
  · subst hSame
    rw [if_pos rfl]
    split_ifs
    · rfl
    · exact List.count_eq_zero.mpr (by simp)
  · rw [if_neg hSame, List.count_filter (by simpa using hSame)]

end SDWebImageDownloaderOperation

namespace WebCache

variable {w w' w'' : WebCache ν ι} {hand : List ℕ} {i j d : ℕ} {url : String} {v : ν}

/-- The two ways of a cancellation in the downloader. -/
theorem cancelDownload_cases (w : WebCache ν ι) (url : String) (token : ℕ) :
    w.cancelDownload url token = w ∨ ∃ d download urlOperations,
      w.urlOperations url = some d ∧ w.downloads[d]? = some download ∧
        (urlOperations = w.urlOperations ∨ (download.cancel token).2 = true ∧
          urlOperations = Function.update w.urlOperations url none) ∧
        w.cancelDownload url token =
          { w with downloads := w.downloads.set d (download.cancel token).1, urlOperations } := by
  unfold cancelDownload
  split
  · exact Or.inl rfl
  · rename_i d hRegistered
    split
    · exact Or.inl rfl
    · rename_i download hDownload
      refine Or.inr ⟨d, download, _, hRegistered, hDownload, ?_, rfl⟩
      split_ifs with hLast
      · exact Or.inr ⟨hLast, rfl⟩
      · exact Or.inl rfl

theorem awaits_cancelDownload (w : WebCache ν ι) (url : String) (token : ℕ) :
    (∀ j, (w.cancelDownload url token).awaits j ≤ w.awaits j) ∧
      ∀ j, j ≠ token → (w.cancelDownload url token).awaits j = w.awaits j := by
  rcases cancelDownload_cases w url token with
    hSame | ⟨d, download, urlOperations, -, hDownload, -, hCancelled⟩
  · rw [hSame]
    exact ⟨fun j => Nat.le_refl _, fun j _ => rfl⟩
  · rw [hCancelled]
    have hSum : ∀ j, ((w.downloads.set d (download.cancel token).1).map
        (SDWebImageDownloaderOperation.awaits j)).sum + download.awaits j =
          (w.downloads.map (SDWebImageDownloaderOperation.awaits j)).sum +
            if j = token then 0 else download.awaits j := fun j => by
      rw [sum_map_set hDownload, SDWebImageDownloaderOperation.awaits_cancel]
    constructor
    · intro j
      have := hSum j
      simp only [awaits]
      split_ifs at this <;> omega
    · intro j hNe
      have := hSum j
      rw [if_neg hNe] at this
      simp only [awaits]
      omega

theorem cancelDownload_frame (w : WebCache ν ι) (url : String) (token : ℕ) :
    (w.cancelDownload url token).operations = w.operations ∧
      (w.cancelDownload url token).views = w.views ∧
      (w.Served S → (w.cancelDownload url token).Served S) := by
  rcases cancelDownload_cases w url token with hSame | ⟨d, download, urlOperations, -, -, -, hEq⟩
  · rw [hSame]
    exact ⟨rfl, rfl, id⟩
  · rw [hEq]
    exact ⟨rfl, rfl, fun hS => hS.congr rfl rfl rfl rfl rfl⟩

theorem Good.cancelDownload (h : w.Good hand) (url : String) (token : ℕ) :
    (w.cancelDownload url token).Good hand := by
  have hAwaits := (awaits_cancelDownload w url token).1
  rcases cancelDownload_cases w url token with
    hSame | ⟨d, download, urlOperations, hURL, hDownload, hTable, hCancelled⟩
  · rw [hSame]
    exact h
  · rw [hCancelled] at hAwaits ⊢
    obtain ⟨hKept, -, hBlocks⟩ := download.cancel_spec token
    obtain ⟨hRegistered, hHandlers⟩ := h.set_download hDownload _ hKept fun i hi =>
      (List.mem_filter.mp (hBlocks ▸ hi)).1
    refine h.move rfl (fun j => Nat.add_le_add_right (hAwaits j) _) (fun _ => rfl) (fun _ => rfl)
      (fun u e he => hRegistered u e ?_) hHandlers
    rcases hTable with rfl | ⟨-, rfl⟩
    · exact he
    · exact eq_some_of_removed he

/-- What a cancelled operation leaves behind. -/
theorem cancelOperation_spec (h : w.Good hand) (i : ℕ) :
    (w.cancelOperation i).Good hand ∧ (w.cancelOperation i).urls = w.urls ∧
      (w.cancelOperation i).views = w.views ∧
      (∀ j operation, (w.cancelOperation i).operations[j]? = some operation →
        operation.isRunning = true → j ≠ i ∧ w.operations[j]? = some operation) ∧
      (∀ j, j ≠ i → (w.cancelOperation i).awaits j = w.awaits j) ∧
      (w.Served S → (w.cancelOperation i).Served S) := by
  unfold cancelOperation
  split
  · rename_i hNone
    refine ⟨h, rfl, rfl, fun j operation hj _ => ⟨?_, hj⟩, fun _ _ => rfl, id⟩
    rintro rfl
    exact absurd (hNone.symm.trans hj) (by simp)
  · rename_i operation hOperation
    let cancelled : WebCache ν ι := { w with
      operations := w.operations.set i { operation with isCancelled := true, isRunning := false } }
    have hUrls : cancelled.urls = w.urls := map_set_of_eq hOperation rfl
    have hRunning : ∀ j other, cancelled.operations[j]? = some other → other.isRunning = true →
        j ≠ i ∧ w.operations[j]? = some other := by
      intro j other hj hFlag
      rcases getElem?_set_cases hj with ⟨-, rfl⟩ | hOld
      · exact absurd hFlag (by simp)
      · exact hOld
    have hGood : cancelled.Good hand := by
      refine ⟨fun j hj => h.fresh j (by simpa [cancelled] using hj), fun j other hj hLive => ?_,
        fun j other hj hFlag => h.running j other (hRunning j other hj hFlag).2 hFlag,
        h.registered, ?_⟩
      · rcases getElem?_set_cases hj with ⟨-, rfl⟩ | ⟨-, hOld⟩
        · exact absurd hLive (by simp)
        · exact h.once j other hOld hLive
      · rw [hUrls]
        exact h.handlers
    have hServed : w.Served S → cancelled.Served S := fun hS => hS.congr rfl rfl rfl rfl hUrls
    show (if operation.downloadToken then cancelled.cancelDownload operation.url i else
      cancelled).Good hand ∧ _
    split_ifs
    · obtain ⟨hOperations, hViews, hServed'⟩ :=
        cancelDownload_frame (S := S) cancelled operation.url i
      have hUrls' : (cancelled.cancelDownload operation.url i).urls = w.urls := by
        rw [urls, hOperations]
        exact hUrls
      refine ⟨hGood.cancelDownload _ _, hUrls', hViews, ?_,
        (awaits_cancelDownload cancelled operation.url i).2, fun hS => hServed' (hServed hS)⟩
      rw [hOperations]
      exact hRunning
    · exact ⟨hGood, hUrls, rfl, hRunning, fun _ _ => rfl, hServed⟩

-- ---------------------------------------------------------------------------
-- A view and its URL
-- ---------------------------------------------------------------------------

/-- A view whose last operation is not running has none. -/
theorem Good.quiet_of_last (h : w.Good hand)
    (hLast : ∀ i operation, (w.views v).loadOperation = some i →
      w.operations[i]? = some operation → operation.isRunning = false) : w.Quiet v := by
  intro i operation hOperation hView
  cases hFlag : operation.isRunning with
  | false => rfl
  | true =>
    obtain ⟨-, hLoad, -⟩ := h.running i operation hOperation hFlag
    rw [hView] at hLoad
    exact hFlag ▸ hLast i operation hLoad hOperation

variable [DecidableEq ν]

theorem views_setLoadOperation (w : WebCache ν ι) (v u : ν) (loadOperation : Option ℕ) :
    (w.setLoadOperation v loadOperation).views u =
      if u = v then { w.views v with loadOperation } else w.views u :=
  Function.update_apply _ _ _ _

/-- The two ways of a view that is given another URL. -/
theorem cancelImageLoad_cases (w : WebCache ν ι) (v : ν) :
    w.cancelImageLoad v = w ∨ ∃ i operation downloads urlOperations,
      (w.views v).loadOperation = some i ∧ w.operations[i]? = some operation ∧
        w.cancelImageLoad v = { w with
          views := Function.update w.views v { w.views v with loadOperation := none }
          operations := w.operations.set i
            { operation with isCancelled := true, isRunning := false }
          downloads, urlOperations } := by
  unfold cancelImageLoad
  split
  · exact Or.inl rfl
  · rename_i i hLoad
    split_ifs with hRunning
    · obtain ⟨operation, hOperation, -⟩ := (Option.any_eq_true _ _).mp hRunning
      rw [cancelOperation, hOperation]
      dsimp only
      split_ifs
      · let cancelled : WebCache ν ι := { w with
          operations := w.operations.set i
            { operation with isCancelled := true, isRunning := false } }
        rcases cancelDownload_cases cancelled operation.url i with
          hSame | ⟨d, download, table, -, -, -, hEq⟩
        · exact Or.inr ⟨i, operation, _, _, hLoad, hOperation,
            congrArg (·.setLoadOperation v none) hSame⟩
        · exact Or.inr ⟨i, operation, _, _, hLoad, hOperation,
            congrArg (·.setLoadOperation v none) hEq⟩
      · exact Or.inr ⟨i, operation, _, _, hLoad, hOperation, rfl⟩
    · exact Or.inl rfl

/-- The view has no operation left, and for the others nothing has changed. -/
theorem cancelImageLoad_spec (h : w.Good hand) (v : ν) :
    (w.cancelImageLoad v).Good hand ∧ (w.cancelImageLoad v).Quiet v ∧
      (w.cancelImageLoad v).urls = w.urls ∧
      (∀ u, u ≠ v → (w.cancelImageLoad v).views u = w.views u) ∧
      (∀ j operation, (w.cancelImageLoad v).operations[j]? = some operation →
        operation.isRunning = true → w.operations[j]? = some operation ∧
          (w.cancelImageLoad v).awaits j = w.awaits j) ∧
      (w.Served S → (w.cancelImageLoad v).Served S) := by
  unfold cancelImageLoad
  split
  · rename_i hNone
    refine ⟨h, h.quiet_of_last fun i _ hLoad => ?_, rfl, fun _ _ => rfl,
      fun j operation hj _ => ⟨hj, rfl⟩, id⟩
    exact absurd (hNone.symm.trans hLoad) (by simp)
  · rename_i i hLoad
    split_ifs with hRunning
    · obtain ⟨hGood, hUrls, hViews, hOthers, hAwaits, hServed⟩ :=
        cancelOperation_spec (S := S) h i
      have hOther : ∀ (j : ℕ) operation, (w.cancelOperation i).operations[j]? = some operation →
          operation.isRunning = true → operation.view ≠ v := by
        rintro j operation hj hFlag rfl
        obtain ⟨hNe, hOld⟩ := hOthers j operation hj hFlag
        obtain ⟨-, hLast, -⟩ := h.running j operation hOld hFlag
        exact hNe (Option.some.inj (hLast.symm.trans hLoad))
      refine ⟨⟨hGood.fresh, hGood.once, fun j operation hj hFlag => ?_, hGood.registered,
        hGood.handlers⟩, fun j operation hj hView => ?_, hUrls, fun u hNe => ?_,
        fun j operation hj hFlag => ?_, fun hS => (hServed hS).congr rfl rfl rfl rfl rfl⟩
      · rw [views_setLoadOperation, if_neg (hOther j operation hj hFlag)]
        exact hGood.running j operation hj hFlag
      · cases hFlag : operation.isRunning with
        | false => rfl
        | true => exact absurd hView (hOther j operation hj hFlag)
      · rw [views_setLoadOperation, if_neg hNe, hViews]
      · obtain ⟨hNe, hOld⟩ := hOthers j operation hj hFlag
        exact ⟨hOld, hAwaits j hNe⟩
    · refine ⟨h, h.quiet_of_last fun j operation hLast hj => ?_, rfl, fun _ _ => rfl,
        fun j operation hj _ => ⟨hj, rfl⟩, id⟩
      obtain rfl := Option.some.inj (hLoad.symm.trans hLast)
      rw [hj] at hRunning
      simpa using hRunning

/-- The view as its new operation finds it. -/
def ready (w : WebCache ν ι) (v : ν) (url : String) : WebCache ν ι :=
  { w with views := Function.update w.views v ⟨none, some url, some w.operations.length⟩ }

theorem callCompletionBlock_none (w : WebCache ν ι) (i : ℕ) : w.callCompletionBlock i none = w := by
  unfold callCompletionBlock
  split
  · rename_i hNone
    exact absurd hNone (by simp)
  · rfl

/-- The dictionary entry may as well be made before the load. -/
theorem setImageWithURL_eq (w : WebCache ν ι) (v : ν) (url : String) :
    w.setImageWithURL v url = ((w.cancelImageLoad v).ready v url).loadImage v url := by
  generalize hIdle : w.cancelImageLoad v = idle
  unfold setImageWithURL
  rw [hIdle]
  by_cases hFailed : url = "" ∨ url ∈ idle.failedURLs
  · simp [loadImage, ready, hFailed, callCompletionBlock_none, setLoadOperation]
  · cases hMemory : idle.memCache url with
    | none => simp [loadImage, ready, hFailed, hMemory, setLoadOperation]
    | some image =>
      simp [loadImage, ready, hFailed, hMemory, setLoadOperation, queried, callCompletionBlock,
        setImage, safelyRemoveOperationFromRunning]

/-- The view has been made ready, and its operation created. -/
def created (w : WebCache ν ι) (v : ν) (url : String) (isRunning : Bool) : WebCache ν ι :=
  { w.ready v url with operations := w.operations ++ [⟨v, url, false, isRunning, false⟩] }

theorem urls_created (w : WebCache ν ι) (v : ν) (url : String) (isRunning : Bool) :
    (w.created v url isRunning).urls = w.urls ++ [url] := by
  rw [urls, created, List.map_append]
  rfl

theorem views_created (w : WebCache ν ι) (v u : ν) (url : String) (isRunning : Bool) :
    (w.created v url isRunning).views u =
      if u = v then ⟨none, some url, some w.operations.length⟩ else w.views u :=
  Function.update_apply _ _ _ _

theorem Good.created (h : w.Good hand) (hQuiet : w.Quiet v) (url : String) (isRunning : Bool) :
    (w.created v url isRunning).Good
      (List.replicate isRunning.toNat w.operations.length ++ hand) := by
  have hCount : ∀ j, (List.replicate isRunning.toNat w.operations.length ++ hand).count j =
      (if w.operations.length = j then isRunning.toNat else 0) + hand.count j := fun j => by
    rw [List.count_append, List.count_replicate]
    simp only [beq_iff_eq]
  refine ⟨fun j hj => ?_, fun j operation hj hLive => ?_, fun j operation hj hFlag => ?_,
    h.registered, fun download hMem j hj => ?_⟩
  · have hLength : (w.created v url isRunning).operations.length = w.operations.length + 1 :=
      List.length_append
    have hLt : w.operations.length < j := by omega
    have := h.fresh j hLt.le
    rw [hCount, if_neg hLt.ne]
    show w.awaits j + (0 + hand.count j) = 0
    omega
  · rw [hCount]
    show w.awaits j + _ ≤ _
    rcases getElem?_concat_cases hj with ⟨rfl, rfl⟩ | hOld
    · have := h.fresh w.operations.length (Nat.le_refl _)
      rw [if_pos rfl]
      show _ ≤ isRunning.toNat
      omega
    · have hLt := (List.getElem?_eq_some_iff.mp hOld).1
      rw [if_neg hLt.ne', Nat.zero_add]
      exact h.once j operation hOld hLive
  · rcases getElem?_concat_cases hj with ⟨rfl, rfl⟩ | hOld
    · refine ⟨rfl, ?_, ?_⟩
      · rw [views_created, if_pos rfl]
      · rw [views_created, if_pos rfl]
    · have hOther : operation.view ≠ v := fun hView => by
        rw [hQuiet j operation hOld hView] at hFlag
        exact absurd hFlag (by simp)
      rw [views_created, if_neg hOther]
      exact h.running j operation hOld hFlag
  · have hOld := h.handlers download hMem j hj
    rw [urls_created, List.getElem?_append_left (List.getElem?_eq_some_iff.mp hOld).1]
    exact hOld

/-- No block knows the new operation. -/
theorem Good.urls_created (h : w.Good hand) {isRunning : Bool} {url' : String}
    (hAwaits : 0 < w.awaits i) (hUrl : (w.created v url isRunning).urls[i]? = some url') :
    w.urls[i]? = some url' := by
  rw [WebCache.urls_created] at hUrl
  rcases getElem?_concat_cases hUrl with ⟨rfl, -⟩ | hUrl
  · have := h.fresh w.urls.length (length_urls w).ge
    omega
  · exact hUrl

theorem Served.created (hServed : w.Served S) (h : w.Good hand) (v : ν) (url : String)
    (isRunning : Bool) : (w.created v url isRunning).Served S := by
  refine ⟨hServed.memory, hServed.disk, hServed.stored, fun i image url' hMem hUrl => ?_,
    fun blocks image i url' hMem hi hUrl => ?_⟩
  · have hAwaits := awaits_of_mem hMem i
    rw [MainBlock.awaits, if_pos rfl] at hAwaits
    exact hServed.queried i image url' hMem (h.urls_created hAwaits hUrl)
  · have hAwaits := awaits_of_mem hMem i
    have hPos : 0 < blocks.count i := List.count_pos_iff.mpr hi
    exact hServed.completed blocks image i url' hMem hi
      (h.urls_created (hPos.trans_le hAwaits) hUrl)

-- ---------------------------------------------------------------------------
-- The blocks
-- ---------------------------------------------------------------------------

/-- The end of an operation that is handed a picture, or none. -/
theorem ended_proceeds (h : w.Good (i :: hand)) (hServed : w.Served S) (image : Option ι)
    (hImage : ∀ url, w.urls[i]? = some url → ∀ x ∈ image, S url x) :
    Proceeds S hand w ((w.callCompletionBlock i image).safelyRemoveOperationFromRunning i) := by
  obtain ⟨⟨views, hEq⟩, hGood, hDelivers⟩ := callCompletionBlock_spec (S := S) h hImage
  have hServed' : (w.callCompletionBlock i image).Served S := by
    rw [hEq]
    exact hServed.congr rfl rfl rfl rfl rfl
  have hEnd := safelyRemove_proceeds hGood hServed'
  refine ⟨hEnd.good, hEnd.served, hEnd.urls.trans ?_, hDelivers.trans hEnd.delivers⟩
  rw [hEq]
  rfl

theorem queried_proceeds (h : w.Good (i :: hand)) (hServed : w.Served S) (image : Option ι)
    (hImage : ∀ url, w.urls[i]? = some url → ∀ x ∈ image, S url x) :
    Proceeds S hand w (w.queried i image) := by
  unfold queried
  split
  · rename_i hNone
    have := h.fresh i (List.getElem?_eq_none_iff.mp hNone)
    rw [List.count_cons_self] at this
    omega
  · rename_i operation hOperation
    have hURL : w.urls[i]? = some operation.url :=
      urls_eq_some.mpr ⟨operation, hOperation, rfl⟩
    split_ifs
    · exact safelyRemove_proceeds h hServed
    · split
      · exact ⟨h.downloadImage hURL, hServed.downloadImage _ _, urls_downloadImage w _ _,
          .downloadImage w _ _⟩
      · exact ended_proceeds h hServed _ hImage

theorem downloaded_proceeds (h : w.Good (i :: hand)) (hServed : w.Served S)
    (answer : Except NSError ι)
    (hAnswer : ∀ url, w.urls[i]? = some url → ∀ x, answer = .ok x → S url x) :
    Proceeds S hand w (downloaded answer w i) := by
  unfold downloaded
  split
  · rename_i hNone
    have := h.fresh i (List.getElem?_eq_none_iff.mp hNone)
    rw [List.count_cons_self] at this
    omega
  · rename_i operation hOperation
    have hURL : w.urls[i]? = some operation.url :=
      urls_eq_some.mpr ⟨operation, hOperation, rfl⟩
    split_ifs
    · exact safelyRemove_proceeds h hServed
    · split
      · rename_i error
        rw [callCompletionBlock_none]
        let failed : WebCache ν ι := { w with
          failedURLs := if error.shouldBlockFailedURL then operation.url :: w.failedURLs
            else w.failedURLs }
        have hFailed : failed.Good (i :: hand) :=
          h.move rfl (fun _ => Nat.le_refl _) (fun _ => rfl) (fun _ => rfl) h.registered h.handlers
        have hEnd : Proceeds S hand failed _ :=
          safelyRemove_proceeds hFailed (hServed.congr rfl rfl rfl rfl rfl)
        exact ⟨hEnd.good, hEnd.served, hEnd.urls,
          (Delivers.of_views rfl fun _ => id : Delivers S w failed).trans hEnd.delivers⟩
      · rename_i image
        have hOk : S operation.url image := hAnswer operation.url hURL image rfl
        let stored : WebCache ν ι := { w with
          memCache := Function.update w.memCache operation.url (some image)
          ioQueue := w.ioQueue ++ [.storeImage operation.url image] }
        have hAwaits : ∀ j, stored.awaits j = w.awaits j := fun j => by
          simp [stored, awaits, IOBlock.awaits]
        have hStored : stored.Good (i :: hand) :=
          h.move rfl (fun j => by rw [hAwaits]) (fun _ => rfl) (fun _ => rfl) h.registered
            h.handlers
        have hServed' : stored.Served S := by
          refine ⟨served_update hServed.memory hOk, hServed.disk, fun url x hMem => ?_,
            hServed.queried, hServed.completed⟩
          rcases List.mem_append.mp hMem with hOld | hNew
          · exact hServed.stored url x hOld
          · obtain ⟨rfl, rfl⟩ := IOBlock.storeImage.inj (List.mem_singleton.mp hNew)
            exact hOk
        have hEnd : Proceeds S hand stored _ := ended_proceeds hStored hServed'
          (some image) fun url hSame x hx => by
            obtain rfl := Option.some.inj hx
            obtain rfl := Option.some.inj (hURL.symm.trans hSame)
            exact hOk
        exact ⟨hEnd.good, hEnd.served, hEnd.urls,
          (Delivers.of_views rfl fun _ => id : Delivers S w stored).trans hEnd.delivers⟩

/-- All callbacks of a download. -/
theorem completed_proceeds {answer : Except NSError ι} {blocks : List ℕ}
    (h : w.Good (blocks ++ hand)) (hServed : w.Served S)
    (hAnswer : ∀ i ∈ blocks, ∀ url, w.urls[i]? = some url → ∀ x, answer = .ok x → S url x) :
    Proceeds S hand w (blocks.foldl (downloaded answer) w) := by
  induction blocks generalizing w with
  | nil => exact ⟨h, hServed, rfl, .refl w⟩
  | cons i blocks ih =>
    rw [List.forall_mem_cons] at hAnswer
    have hFirst := downloaded_proceeds h hServed answer hAnswer.1
    have hRest := ih hFirst.good hFirst.served (by rw [hFirst.urls]; exact hAnswer.2)
    exact ⟨hRest.good, hRest.served, hRest.urls.trans hFirst.urls,
      hFirst.delivers.trans hRest.delivers⟩

theorem main_proceeds (h : w.Good []) (hServed : w.Served S) {block : MainBlock ι}
    {rest : List (MainBlock ι)} (hMain : w.mainQueue = block :: rest) :
    Proceeds S [] w (({ w with mainQueue := rest } : WebCache ν ι).main block) := by
  let popped : WebCache ν ι := { w with mainQueue := rest }
  have hAwaits : ∀ j, popped.awaits j + block.awaits j = w.awaits j := awaits_pop_main hMain
  have hPopped : popped.Served S := by
    refine ⟨hServed.memory, hServed.disk, hServed.stored, fun i image url hMem => ?_,
      fun blocks image i url hMem => ?_⟩
    · exact hServed.queried i image url (hMain ▸ List.mem_cons_of_mem block hMem)
    · exact hServed.completed blocks image i url (hMain ▸ List.mem_cons_of_mem block hMem)
  have hViews : Delivers S w popped := .of_views rfl fun _ => id
  have hHead : block ∈ w.mainQueue := hMain ▸ List.mem_cons_self
  have hProceeds : Proceeds S [] popped (popped.main block) := by
    cases block with
    | queried i image =>
      refine queried_proceeds (w := popped) (h.move rfl (fun j => ?_) (fun _ => rfl) (fun _ => rfl)
        h.registered h.handlers) hPopped image fun url hURL x hx => ?_
      · have := hAwaits j
        rw [MainBlock.awaits] at this
        rw [List.count_singleton, List.count_nil]
        simp only [beq_iff_eq]
        omega
      · obtain rfl := Option.mem_def.mp hx
        exact hServed.queried i x url hHead hURL
    | completed blocks answer =>
      refine completed_proceeds (w := popped) (h.move rfl (fun j => ?_) (fun _ => rfl)
        (fun _ => rfl) h.registered h.handlers) hPopped fun i hi url hURL x hx => ?_
      · have := hAwaits j
        rw [MainBlock.awaits] at this
        rw [List.append_nil, List.count_nil]
        omega
      · subst hx
        exact hServed.completed blocks x i url hHead hi hURL
  exact ⟨hProceeds.good, hProceeds.served, hProceeds.urls, hViews.trans hProceeds.delivers⟩

-- ---------------------------------------------------------------------------
-- The events
-- ---------------------------------------------------------------------------

/-- A picture that a download brings is one that is served at its URL. -/
def Event.Serves (S : String → ι → Prop) (w : WebCache ν ι) : Event ν ι → Prop
  | .didComplete d (.ok image) => ∀ download, w.downloads[d]? = some download →
      S download.url image
  | _ => True

/-- The step of a download on its own thread keeps the operations where they are, or
takes them to the main queue. -/
theorem awaits_download {e : Event ν ι} (hStep : w.step e = some w')
    (hDownload : ∃ d, (∃ answer, e = .didComplete d answer) ∨ e = .done d ∨
      e = .completionBlock d) :
    w'.operations = w.operations ∧ w'.views = w.views ∧ ∀ j, w'.awaits j = w.awaits j := by
  obtain ⟨d, ⟨answer, rfl⟩ | rfl | rfl⟩ := hDownload
  · obtain ⟨download, hDownload, -, hAnswered, rfl⟩ := step_didComplete hStep
    refine ⟨rfl, rfl, fun j => ?_⟩
    have hSum := sum_map_set (w := SDWebImageDownloaderOperation.awaits j) hDownload
      { download with answered := true }
    simp only [SDWebImageDownloaderOperation.awaits, hAnswered, if_true, Bool.false_eq_true,
      if_false] at hSum
    simp only [awaits, sum_map_concat, MainBlock.awaits]
    omega
  · obtain ⟨download, hDownload, hAnswered, -, rfl⟩ := step_done hStep
    refine ⟨rfl, rfl, fun j => ?_⟩
    have hSame : download.done.awaits j = download.awaits j := by
      simp [SDWebImageDownloaderOperation.awaits, SDWebImageDownloaderOperation.done, hAnswered]
    have hSum := sum_map_set (w := SDWebImageDownloaderOperation.awaits j) hDownload download.done
    simp only [awaits]
    omega
  · obtain ⟨download, hDownload, -, -, rfl⟩ := step_completionBlock hStep
    refine ⟨rfl, rfl, fun j => ?_⟩
    have hSum := sum_map_set (w := SDWebImageDownloaderOperation.awaits j) hDownload
      { download with completionBlock := false }
    change _ + download.awaits j = _ + download.awaits j at hSum
    simp only [awaits]
    omega

theorem didComplete_proceeds (h : w.Good []) (hServed : w.Served S) {answer : Except NSError ι}
    (hServes : Event.Serves S w (.didComplete d answer))
    (hStep : w.step (.didComplete d answer) = some w') : Proceeds S [] w w' := by
  obtain ⟨-, -, hAwaits⟩ := awaits_download hStep ⟨d, Or.inl ⟨answer, rfl⟩⟩
  obtain ⟨download, hDownload, -, -, rfl⟩ := step_didComplete hStep
  obtain ⟨hRegistered, hHandlers⟩ := h.set_download hDownload
    { download with answered := true } rfl fun i => id
  refine ⟨h.move rfl (fun j => by rw [hAwaits]) (fun _ => rfl) (fun _ => rfl) hRegistered
    hHandlers, ⟨hServed.memory, hServed.disk, hServed.stored, fun i image url hMem => ?_,
    fun blocks image i url hMem hi hURL => ?_⟩, rfl, .of_views rfl fun _ => id⟩
  · rcases List.mem_append.mp hMem with hOld | hNew
    · exact hServed.queried i image url hOld
    · exact absurd (List.mem_singleton.mp hNew) (by simp)
  · rcases List.mem_append.mp hMem with hOld | hNew
    · exact hServed.completed blocks image i url hOld hi hURL
    · obtain ⟨rfl, rfl⟩ := MainBlock.completed.inj (List.mem_singleton.mp hNew)
      have hOwn := h.handlers download (List.mem_of_getElem? hDownload) i hi
      obtain rfl := Option.some.inj (hURL.symm.trans hOwn)
      exact hServes download hDownload

/-- **The threads.** Whatever they do keeps the operations in their places. -/
theorem background_proceeds (h : w.Good []) (hServed : w.Served S) {e : Event ν ι}
    (hView : e.view? = none) (hServes : e.Serves S w) (hStep : w.step e = some w') :
    Proceeds S [] w w' := by
  cases e with
  | setImageWithURL v url => exact absurd hView (by simp [Event.view?])
  | setImage v image => exact absurd hView (by simp [Event.view?])
  | io =>
    obtain ⟨block, rest, hIo, rfl⟩ := step_io hStep
    exact io_proceeds h hServed hIo
  | main =>
    obtain ⟨block, rest, hMain, rfl⟩ := step_main hStep
    exact main_proceeds h hServed hMain
  | didComplete d answer => exact didComplete_proceeds h hServed hServes hStep
  | done d =>
    obtain ⟨-, -, hAwaits⟩ := awaits_download hStep ⟨d, Or.inr (Or.inl rfl)⟩
    obtain ⟨download, hDownload, -, -, rfl⟩ := step_done hStep
    obtain ⟨hRegistered, hHandlers⟩ := h.set_download hDownload download.done rfl
      fun i hi => absurd hi List.not_mem_nil
    exact ⟨h.move rfl (fun j => by rw [hAwaits]) (fun _ => rfl) (fun _ => rfl) hRegistered
      hHandlers, hServed.congr rfl rfl rfl rfl rfl, rfl, .of_views rfl fun _ => id⟩
  | completionBlock d =>
    obtain ⟨-, -, hAwaits⟩ := awaits_download hStep ⟨d, Or.inr (Or.inr rfl)⟩
    obtain ⟨download, hDownload, -, -, rfl⟩ := step_completionBlock hStep
    obtain ⟨hRegistered, hHandlers⟩ := h.set_download hDownload
      { download with completionBlock := false } rfl fun i => id
    exact ⟨h.move rfl (fun j => by rw [hAwaits]) (fun _ => rfl) (fun _ => rfl)
      (fun url e he => hRegistered url e (eq_some_of_removed he)) hHandlers,
      hServed.congr rfl rfl rfl rfl rfl, rfl, .of_views rfl fun _ => id⟩
  | removeFromMemory url =>
    obtain rfl := Option.some.inj hStep
    exact ⟨h.move rfl (fun _ => Nat.le_refl _) (fun _ => rfl) (fun _ => rfl) h.registered
      h.handlers, ⟨fun u x hx => hServed.memory u x (eq_some_of_removed hx), hServed.disk,
      hServed.stored, hServed.queried, hServed.completed⟩, rfl, .of_views rfl fun _ => id⟩
  | removeFromDisk url =>
    obtain rfl := Option.some.inj hStep
    exact ⟨h.move rfl (fun _ => Nat.le_refl _) (fun _ => rfl) (fun _ => rfl) h.registered
      h.handlers, ⟨hServed.memory, fun u x hx => hServed.disk u x (eq_some_of_removed hx),
      hServed.stored, hServed.queried, hServed.completed⟩, rfl, .of_views rfl fun _ => id⟩

-- ---------------------------------------------------------------------------
-- A request
-- ---------------------------------------------------------------------------

/-- The three ways of a load: refused, answered by the memory, or sent to the disk. -/
theorem loadImage_cases (w : WebCache ν ι) (v : ν) (url : String) :
    ((url = "" ∨ url ∈ w.failedURLs) ∧ (w.ready v url).loadImage v url = w.created v url false) ∨
    (url ∉ w.failedURLs ∧ ((∃ image, w.memCache url = some image ∧ (w.ready v url).loadImage v url =
        (w.created v url true).queried w.operations.length (some image)) ∨
      (w.ready v url).loadImage v url = { w.created v url true with
        ioQueue := w.ioQueue ++ [.queryDisk w.operations.length] })) := by
  by_cases hFailed : url = "" ∨ url ∈ w.failedURLs
  · refine Or.inl ⟨hFailed, ?_⟩
    simp [loadImage, created, ready, hFailed, callCompletionBlock_none]
  · refine Or.inr ⟨fun hMem => hFailed (Or.inr hMem), ?_⟩
    cases hMemory : w.memCache url with
    | none =>
      refine Or.inr ?_
      simp [loadImage, created, ready, hFailed, hMemory]
    | some image =>
      refine Or.inl ⟨image, rfl, ?_⟩
      simp [loadImage, created, ready, hFailed, hMemory]

/-- What a request leaves, seen from the views. -/
structure Requested (S : String → ι → Prop) (v : ν) (url : String) (w w' : WebCache ν ι) :
    Prop where
  good : w'.Good []
  served : w'.Served S
  imageURL : (w'.views v).imageURL = some url
  image : (w'.views v).image = none ∨ ∃ image, (w'.views v).image = some image ∧ S url image
  others : ∀ u, u ≠ v → w'.views u = w.views u
  quiet : ∀ u, u ≠ v → w.Quiet u → w'.Quiet u
  failed : url ∈ w.failedURLs → w'.Quiet v ∧ (w'.views v).image = none

theorem quiet_created {u : ν} (hNe : u ≠ v) (hOther : w.Quiet u) (url : String)
    (isRunning : Bool) : (w.created v url isRunning).Quiet u := by
  intro j operation hj hView
  rcases getElem?_concat_cases hj with ⟨-, rfl⟩ | hOld
  · exact absurd hView.symm hNe
  · exact hOther j operation hOld hView

theorem failedURLs_cancelImageLoad (w : WebCache ν ι) (v : ν) :
    (w.cancelImageLoad v).failedURLs = w.failedURLs := by
  rcases cancelImageLoad_cases w v with hSame | ⟨i, operation, downloads, table, -, -, hEq⟩
  · rw [hSame]
  · rw [hEq]

theorem setImageWithURL_requested (h : w.Good []) (hServed : w.Served S) (v : ν) (url : String) :
    Requested S v url w (w.setImageWithURL v url) := by
  rw [setImageWithURL_eq]
  obtain ⟨hGood, hQuiet, -, hViews, hOthers, hServes⟩ := cancelImageLoad_spec (S := S) h v
  have hFailedURLs := failedURLs_cancelImageLoad w v
  generalize w.cancelImageLoad v = idle at hGood hQuiet hViews hOthers hServes hFailedURLs ⊢
  have hQuiet' : ∀ u, u ≠ v → w.Quiet u → idle.Quiet u := by
    intro u _ hOld j operation hj hView
    cases hFlag : operation.isRunning with
    | false => rfl
    | true => exact hFlag ▸ hOld j operation (hOthers j operation hj hFlag).1 hView
  have hCreated : ∀ isRunning u, u ≠ v → (idle.created v url isRunning).views u = w.views u := by
    intro isRunning u hNe
    rw [views_created, if_neg hNe, hViews u hNe]
  have hOwn : ∀ isRunning, (idle.created v url isRunning).views v =
      ⟨none, some url, some idle.operations.length⟩ := by
    intro isRunning
    rw [views_created, if_pos rfl]
  rcases loadImage_cases idle v url with
    ⟨-, hEq⟩ | ⟨hNotFailed, ⟨image, hMemory, hEq⟩ | hEq⟩
  · rw [hEq]
    refine ⟨hGood.created hQuiet url false, (hServes hServed).created hGood v url false, ?_, ?_,
      hCreated false, fun u hNe hOld => quiet_created hNe (hQuiet' u hNe hOld) url false,
      fun _ => ⟨fun j operation hj hView => ?_, ?_⟩⟩
    · rw [hOwn]
    · rw [hOwn]
      exact Or.inl rfl
    · rcases getElem?_concat_cases hj with ⟨-, rfl⟩ | hOld
      · rfl
      · exact hQuiet j operation hOld hView
    · rw [hOwn]
  · rw [hEq]
    have hURL : (idle.created v url true).urls[idle.operations.length]? = some url := by
      rw [urls_created, ← length_urls, List.getElem?_concat_length]
    have hEnd : Proceeds S [] (idle.created v url true) _ :=
      queried_proceeds (hGood.created hQuiet url true)
        ((hServes hServed).created hGood v url true) (some image) fun url' hSame x hx => by
          obtain rfl := Option.some.inj hx
          obtain rfl := Option.some.inj (hURL.symm.trans hSame)
          exact (hServes hServed).memory url image hMemory
    have hOperation : (idle.created v url true).operations[idle.operations.length]? =
        some ⟨v, url, false, true, false⟩ := List.getElem?_concat_length
    have hEndViews : ∀ u, ((idle.created v url true).queried idle.operations.length
        (some image)).views u =
          if u = v then ⟨some image, some url, some idle.operations.length⟩ else w.views u := by
      intro u
      have hQueried : ((idle.created v url true).queried idle.operations.length
          (some image)).views = ((idle.created v url true).setImage v (some image)).views := by
        simp [queried, hOperation, callCompletionBlock, safelyRemoveOperationFromRunning]
      rw [hQueried, views_setImage]
      split_ifs with hSame
      · rw [hOwn]
      · exact hCreated true u hSame
    refine ⟨hEnd.good, hEnd.served, ?_, ?_, fun u hNe => ?_, fun u hNe hOld =>
      hEnd.delivers.quiet u (quiet_created hNe (hQuiet' u hNe hOld) url true), fun hFailed =>
      absurd (hFailedURLs ▸ hFailed) hNotFailed⟩
    · rw [hEndViews, if_pos rfl]
    · rw [hEndViews, if_pos rfl]
      exact Or.inr ⟨image, rfl, (hServes hServed).memory url image hMemory⟩
    · rw [hEndViews, if_neg hNe]
  · rw [hEq]
    refine ⟨(hGood.created hQuiet url true).move rfl (fun j => ?_) (fun _ => rfl) (fun _ => rfl)
      hGood.registered (hGood.created hQuiet url true).handlers, ?_, ?_, ?_, hCreated true,
      fun u hNe hOld => quiet_created hNe (hQuiet' u hNe hOld) url true, fun hFailed =>
      absurd (hFailedURLs ▸ hFailed) hNotFailed⟩
    · have hCreatedAwaits : (idle.created v url true).awaits j = idle.awaits j := rfl
      rw [hCreatedAwaits, List.append_nil, List.count_replicate, List.count_nil]
      simp only [awaits, created, ready, sum_map_concat, IOBlock.awaits, beq_iff_eq,
        Bool.toNat_true]
      split_ifs <;> omega
    · have hOld := (hServes hServed).created hGood v url true
      refine ⟨hOld.memory, hOld.disk, fun u x hMem => ?_, hOld.queried, hOld.completed⟩
      rcases List.mem_append.mp hMem with hStored | hNew
      · exact hOld.stored u x hStored
      · exact absurd (List.mem_singleton.mp hNew) (by simp)
    · show ((idle.created v url true).views v).imageURL = some url
      rw [hOwn]
    · show ((idle.created v url true).views v).image = none ∨ _
      rw [hOwn]
      exact Or.inl rfl

end WebCache

end AggroApp
