import AggroApp.Async.Potential
import AggroApp.Screens.Arrivals

/-!
# AggroApp — the work of a picture

How long the pod goes on by itself. A block is priced at what it can still cause: one on
the disk queue becomes one on the main queue, which becomes a download, whose callbacks
become blocks on the disk queue again, and these cause nothing more.

## Results

* `image_events_bounded` — at most seven of the pod's own events for each request of a
  view.
* `images_come_to_rest`  — from every state the pod comes to rest by itself, whatever
  the server answers.
-/

namespace AggroApp

open Async

variable {ν ι : Type*} {w w' : WebCache ν ι} {i d : ℕ} {url : String} {v : ν}

-- ---------------------------------------------------------------------------
-- The work
-- ---------------------------------------------------------------------------

/-- An open download has its answer before it, with a block for each callback and the
block that runs them; then its end, and the completion block. -/
def SDWebImageDownloaderOperation.work (download : SDWebImageDownloaderOperation) : ℕ :=
  (bif download.isCancelled || download.answered then 0 else 2 + download.callbackBlocks.length) +
    (bif download.isFinished || (download.isCancelled && !download.answered) then 0 else 1) +
    download.completionBlock.toNat

def IOBlock.work : IOBlock ι → ℕ
  | .queryDisk _ => 7
  | .storeImage _ _ => 1

def MainBlock.work : MainBlock ι → ℕ
  | .queried _ _ => 6
  | .completed callbackBlocks _ => 1 + callbackBlocks.length

namespace WebCache

/-- The events of its own that the pod can still take. -/
def work (w : WebCache ν ι) : ℕ :=
  (w.ioQueue.map IOBlock.work).sum + (w.mainQueue.map MainBlock.work).sum +
    (w.downloads.map SDWebImageDownloaderOperation.work).sum

/-- The queues and the downloads go on. -/
def Event.isOwn : Event ν ι → Bool
  | .io | .main | .didComplete _ _ | .done _ | .completionBlock _ => true
  | _ => false

/-- A view is given a URL. -/
def Event.isRequest : Event ν ι → Bool
  | .setImageWithURL _ _ => true
  | _ => false

theorem work_launched (disk : String → Option ι) : (launched disk : WebCache ν ι).work = 0 := rfl

theorem work_congr (hIo : w'.ioQueue = w.ioQueue) (hMain : w'.mainQueue = w.mainQueue)
    (hDownloads : w'.downloads = w.downloads) : w'.work = w.work := by
  rw [work, work, hIo, hMain, hDownloads]

/-- One of the downloads goes on. -/
theorem work_set_download {old : SDWebImageDownloaderOperation} (h : w.downloads[d]? = some old)
    (new : SDWebImageDownloaderOperation) (hIo : w'.ioQueue = w.ioQueue)
    (hMain : w'.mainQueue = w.mainQueue) (hDownloads : w'.downloads = w.downloads.set d new) :
    w'.work + old.work = w.work + new.work := by
  have hSum := sum_map_set (w := SDWebImageDownloaderOperation.work) h new
  rw [work, work, hIo, hMain, hDownloads]
  omega

end WebCache

-- ---------------------------------------------------------------------------
-- What each operation brings
-- ---------------------------------------------------------------------------

namespace SDWebImageDownloaderOperation

variable {download : SDWebImageDownloaderOperation}

theorem work_addHandlers (download : SDWebImageDownloaderOperation) (i : ℕ) :
    (download.addHandlers i).work ≤ download.work + 1 := by
  simp only [work, addHandlers, List.length_append, List.length_singleton]
  cases download.isCancelled || download.answered with
  | true => exact Nat.le_succ _
  | false =>
    simp only [cond_false]
    omega

theorem work_filter (download : SDWebImageDownloaderOperation) (p : ℕ → Bool) :
    ({ download with callbackBlocks := download.callbackBlocks.filter p } :
      SDWebImageDownloaderOperation).work ≤ download.work := by
  have hLess : (download.callbackBlocks.filter p).length ≤ download.callbackBlocks.length :=
    List.length_filter_le p _
  simp only [work]
  cases download.isCancelled || download.answered with
  | true => exact Nat.le_refl _
  | false =>
    simp only [cond_false]
    omega

theorem work_cancelInternal (download : SDWebImageDownloaderOperation) :
    download.cancelInternal.work ≤ download.work := by
  unfold cancelInternal
  split_ifs with hFinished
  · exact Nat.le_refl _
  · cases hAnswered : download.answered <;> cases hCancelled : download.isCancelled <;>
      simp [work, hAnswered, hCancelled, hFinished]

theorem work_cancel (download : SDWebImageDownloaderOperation) (token : ℕ) :
    (download.cancel token).1.work ≤ download.work := by
  have hRest := download.work_filter fun i => decide (i ≠ token)
  simp only [cancel]
  split_ifs
  · exact (work_cancelInternal _).trans hRest
  · exact hRest

theorem work_done (hAnswered : download.answered = true) (hFinished : download.isFinished = false) :
    download.done.work < download.work := by
  simp [work, done, hAnswered, hFinished]

end SDWebImageDownloaderOperation

namespace WebCache

theorem work_cancelDownload (w : WebCache ν ι) (url : String) (token : ℕ) :
    (w.cancelDownload url token).work ≤ w.work := by
  rcases cancelDownload_cases w url token with
    hSame | ⟨d, download, urlOperations, -, hDownload, -, hEq⟩
  · exact Nat.le_of_eq (congrArg work hSame)
  · have hSum : (w.cancelDownload url token).work + download.work =
        w.work + (download.cancel token).1.work :=
      work_set_download hDownload _ (by rw [hEq]) (by rw [hEq]) (by rw [hEq])
    have hLess := download.work_cancel token
    omega

theorem work_cancelOperation (w : WebCache ν ι) (i : ℕ) : (w.cancelOperation i).work ≤ w.work := by
  unfold cancelOperation
  split
  · exact Nat.le_refl _
  · dsimp only
    split_ifs
    · exact work_cancelDownload _ _ _
    · exact Nat.le_refl _

theorem work_queryDisk (w : WebCache ν ι) (i : ℕ) : (w.queryDisk i).work ≤ w.work + 6 := by
  have hQueried : ∀ image : Option ι,
      ((w.mainQueue ++ [MainBlock.queried i image]).map MainBlock.work).sum =
        (w.mainQueue.map MainBlock.work).sum + 6 := fun image => sum_map_concat w.mainQueue _
  unfold queryDisk
  split
  · exact Nat.le_add_right _ _
  · split_ifs
    · exact Nat.le_add_right _ _
    · split
      · simp only [work, hQueried]
        omega
      · simp only [work, hQueried]
        omega

/-- Joining costs a block for the callback, a new download five events. -/
theorem work_downloadImage (w : WebCache ν ι) (url : String) (i : ℕ) :
    (w.downloadImage url i).work ≤ w.work + 5 := by
  unfold downloadImage
  split
  · rename_i d hJoin
    obtain ⟨-, download, hDownload, -, -⟩ := joinable_eq_some hJoin
    have hSum := sum_map_modify (w := SDWebImageDownloaderOperation.work) hDownload
      (·.addHandlers i)
    have hLess := download.work_addHandlers i
    simp only [work]
    omega
  · have hSum := sum_map_concat (w := SDWebImageDownloaderOperation.work) w.downloads
      ⟨url, [i], false, false, false, true⟩
    have hNew : (⟨url, [i], false, false, false, true⟩ :
      SDWebImageDownloaderOperation).work = 5 := rfl
    simp only [work]
    omega

variable [DecidableEq ν]

theorem work_callCompletionBlock (w : WebCache ν ι) (i : ℕ) (image : Option ι) :
    (w.callCompletionBlock i image).work = w.work := by
  unfold callCompletionBlock
  split
  · split_ifs <;> rfl
  · rfl

theorem work_queried (w : WebCache ν ι) (i : ℕ) (image : Option ι) :
    (w.queried i image).work ≤ w.work + 5 := by
  unfold queried
  split
  · exact Nat.le_add_right _ _
  · split_ifs
    · exact Nat.le_add_right _ _
    · split
      · exact work_downloadImage w _ i
      · rename_i image
        have hSame : ((w.callCompletionBlock i (some image)).safelyRemoveOperationFromRunning
            i).work = w.work := work_callCompletionBlock w i (some image)
        omega

/-- A callback stores the picture at most. -/
theorem work_downloaded (answer : Except NSError ι) (w : WebCache ν ι) (i : ℕ) :
    (downloaded answer w i).work ≤ w.work + 1 := by
  unfold downloaded
  split
  · exact Nat.le_add_right _ _
  · rename_i operation hOperation
    split_ifs
    · exact Nat.le_add_right _ _
    · cases answer with
      | error error =>
        have hSame := work_callCompletionBlock w i (none : Option ι)
        exact Nat.le_succ_of_le (Nat.le_of_eq hSame)
      | ok image =>
        have hSame := work_callCompletionBlock ({ w with
          memCache := Function.update w.memCache operation.url (some image)
          ioQueue := w.ioQueue ++ [.storeImage operation.url image] } : WebCache ν ι) i (some image)
        have hStored := sum_map_concat (w := IOBlock.work) w.ioQueue
          (.storeImage operation.url image)
        have hBlock : (IOBlock.storeImage operation.url image).work = 1 := rfl
        refine (Nat.le_of_eq hSame).trans ?_
        simp only [work]
        omega

theorem work_completed (answer : Except NSError ι) (callbackBlocks : List ℕ) (w : WebCache ν ι) :
    (callbackBlocks.foldl (downloaded answer) w).work ≤ w.work + callbackBlocks.length := by
  induction callbackBlocks generalizing w with
  | nil => exact Nat.le_refl _
  | cons i callbackBlocks ih =>
    have hHead := work_downloaded answer w i
    have hTail := ih (downloaded answer w i)
    rw [List.foldl_cons, List.length_cons]
    omega

theorem work_cancelImageLoad (w : WebCache ν ι) (v : ν) : (w.cancelImageLoad v).work ≤ w.work := by
  unfold cancelImageLoad
  split
  · exact Nat.le_refl _
  · rename_i i hLoad
    split_ifs
    · exact work_cancelOperation w i
    · exact Nat.le_refl _

theorem work_loadImage (w : WebCache ν ι) (v : ν) (url : String) :
    (w.loadImage v url).work ≤ w.work + 7 := by
  unfold loadImage
  dsimp only
  split_ifs
  · rw [work_callCompletionBlock]
    exact Nat.le_add_right _ _
  · split
    · exact (work_queried _ _ _).trans (Nat.add_le_add_left (by omega) w.work)
    · have hQuery : ∀ j, ((w.ioQueue ++ [IOBlock.queryDisk j]).map IOBlock.work).sum =
          (w.ioQueue.map IOBlock.work).sum + 7 := fun j => sum_map_concat w.ioQueue _
      simp only [work, hQuery]
      omega

theorem work_setImageWithURL (w : WebCache ν ι) (v : ν) (url : String) :
    (w.setImageWithURL v url).work ≤ w.work + 7 := by
  have hCancelled := work_cancelImageLoad w v
  let cleared : WebCache ν ι := { w.cancelImageLoad v with
    views := Function.update (w.cancelImageLoad v).views v
      { (w.cancelImageLoad v).views v with image := none, imageURL := some url } }
  have hLoaded : (cleared.loadImage v url).work ≤ (w.cancelImageLoad v).work + 7 :=
    work_loadImage cleared v url
  show (cleared.loadImage v url).work ≤ w.work + 7
  omega

theorem work_io (hStep : w.step .io = some w') : w'.work < w.work := by
  obtain ⟨block, ioQueue, hQueue, rfl⟩ := step_io hStep
  have hBefore : w.work = block.work + ({ w with ioQueue } : WebCache ν ι).work := by
    simp only [work, hQueue, List.map_cons, List.sum_cons]
    omega
  cases block with
  | queryDisk i =>
    have hBlock : (IOBlock.queryDisk i : IOBlock ι).work = 7 := rfl
    have hAfter := work_queryDisk ({ w with ioQueue } : WebCache ν ι) i
    rw [io]
    omega
  | storeImage url image =>
    have hBlock : (IOBlock.storeImage url image).work = 1 := rfl
    have hAfter : (({ w with ioQueue } : WebCache ν ι).io (.storeImage url image)).work =
      ({ w with ioQueue } : WebCache ν ι).work := rfl
    omega

theorem work_main (hStep : w.step .main = some w') : w'.work < w.work := by
  obtain ⟨block, mainQueue, hQueue, rfl⟩ := step_main hStep
  have hBefore : w.work = block.work + ({ w with mainQueue } : WebCache ν ι).work := by
    simp only [work, hQueue, List.map_cons, List.sum_cons]
    omega
  cases block with
  | queried i image =>
    have hBlock : (MainBlock.queried i image).work = 6 := rfl
    have hAfter := work_queried ({ w with mainQueue } : WebCache ν ι) i image
    rw [main]
    omega
  | completed callbackBlocks answer =>
    have hBlock : (MainBlock.completed callbackBlocks answer).work =
      1 + callbackBlocks.length := rfl
    have hAfter := work_completed answer callbackBlocks ({ w with mainQueue } : WebCache ν ι)
    rw [main]
    omega

/-- Each event of the pod's own is paid for. -/
theorem work_own {e : Event ν ι} (hOwn : e.isOwn = true) (hStep : w.step e = some w') :
    w'.work < w.work := by
  cases e with
  | io => exact work_io hStep
  | main => exact work_main hStep
  | didComplete d answer =>
    obtain ⟨download, hDownload, hCancelled, hAnswered, rfl⟩ := step_didComplete hStep
    have hSum := sum_map_set (w := SDWebImageDownloaderOperation.work) hDownload
      { download with answered := true }
    have hBlock := sum_map_concat (w := MainBlock.work) w.mainQueue
      (.completed download.callbackBlocks answer)
    -- the callbacks change hands, and the answer is paid for
    have hPaid : ({ download with answered := true } : SDWebImageDownloaderOperation).work +
        (MainBlock.completed download.callbackBlocks answer).work < download.work := by
      simp only [SDWebImageDownloaderOperation.work, MainBlock.work, hCancelled, hAnswered,
        Bool.or_true, Bool.or_false, Bool.false_and, cond_true, cond_false]
      omega
    simp only [work]
    omega
  | done d =>
    obtain ⟨download, hDownload, hAnswered, hFinished, rfl⟩ := step_done hStep
    have hSum := sum_map_set (w := SDWebImageDownloaderOperation.work) hDownload download.done
    have hPaid := SDWebImageDownloaderOperation.work_done hAnswered hFinished
    simp only [work]
    omega
  | completionBlock d =>
    obtain ⟨download, hDownload, hBlock, -, rfl⟩ := step_completionBlock hStep
    have hSum := sum_map_set (w := SDWebImageDownloaderOperation.work) hDownload
      { download with completionBlock := false }
    have hPaid : ({ download with completionBlock := false } :
        SDWebImageDownloaderOperation).work + 1 = download.work := by
      simp only [SDWebImageDownloaderOperation.work, hBlock, Bool.toNat_true, Bool.toNat_false]
    simp only [work]
    omega
  | _ => exact absurd hOwn (by simp [Event.isOwn])

/-- A request brings seven events, and nothing else brings any. -/
theorem work_step {e : Event ν ι} (hStep : w.step e = some w') :
    w'.work + e.isOwn.toNat ≤ w.work + 7 * e.isRequest.toNat := by
  cases hOwn : e.isOwn with
  | true =>
    have hLess := work_own hOwn hStep
    rw [Bool.toNat_true]
    omega
  | false =>
    cases e with
    | setImageWithURL v url =>
      obtain rfl := Option.some.inj hStep
      exact work_setImageWithURL w v url
    | setImage v image =>
      obtain rfl := Option.some.inj hStep
      exact Nat.le_refl _
    | removeFromMemory url | removeFromDisk url =>
      obtain rfl := Option.some.inj hStep
      exact Nat.le_refl _
    | _ => exact absurd hOwn (by simp [Event.isOwn])

/--
**Seven events for each request.** In every run from a launch, the pod's own events so
far and those that it can still take are at most seven for each URL that a view is
given, whatever is shared, cancelled, or dropped from the caches.
-/
theorem image_events_bounded {disk : String → Option ι} {es : List (Event ν ι)}
    (hRun : run step (launched disk) es = some w) :
    es.countP Event.isOwn + w.work ≤ 7 * es.countP Event.isRequest := by
  have hStep : ∀ w e w', step w e = some w' →
      w'.work + (e : Event ν ι).isOwn.toNat ≤ w.work + 7 * e.isRequest.toNat :=
    fun _ _ _ => work_step
  have hAccounts := run_accounts hStep hRun
  rw [sum_map_toNat, List.sum_map_mul_left, sum_map_toNat, work_launched] at hAccounts
  omega

theorem annIsMissing_bounded :
    ∃ w, run step (launched fun _ => none) annIsMissing = some w ∧
      annIsMissing.countP Event.isOwn + w.work ≤ 7 * annIsMissing.countP Event.isRequest := by
  have hSome : (run step (launched fun _ => none) annIsMissing).isSome = true := by decide
  obtain ⟨w, hRun⟩ := Option.isSome_iff_exists.mp hSome
  exact ⟨w, hRun, image_events_bounded hRun⟩

end WebCache

-- ---------------------------------------------------------------------------
-- Rest
-- ---------------------------------------------------------------------------

/-- A cancelled download has nobody to call. -/
def SDWebImageDownloaderOperation.Cleared (download : SDWebImageDownloaderOperation) : Prop :=
  download.isCancelled = true → download.callbackBlocks = []

theorem SDWebImageDownloaderOperation.Cleared.cancel {download : SDWebImageDownloaderOperation}
    (h : download.Cleared) (token : ℕ) : (download.cancel token).1.Cleared := by
  intro hCancelled
  rw [(download.cancel_spec token).2.2]
  simp only [SDWebImageDownloaderOperation.cancel] at hCancelled
  split_ifs at hCancelled with hEmpty
  · exact List.isEmpty_iff.mp hEmpty
  · rw [h hCancelled, List.filter_nil]

namespace WebCache

def Cleared (w : WebCache ν ι) : Prop := ∀ download ∈ w.downloads, download.Cleared

namespace Cleared

theorem congr (h : w.Cleared) (hDownloads : w'.downloads = w.downloads) : w'.Cleared := by
  rw [WebCache.Cleared, hDownloads]
  exact h

theorem cancelDownload (h : w.Cleared) (url : String) (token : ℕ) :
    (w.cancelDownload url token).Cleared := by
  rcases cancelDownload_cases w url token with
    hSame | ⟨d, download, urlOperations, -, hDownload, -, hEq⟩
  · rw [hSame]
    exact h
  · rw [hEq]
    exact forall_mem_set h ((h download (List.mem_of_getElem? hDownload)).cancel token)

theorem downloadImage (h : w.Cleared) (url : String) (i : ℕ) : (w.downloadImage url i).Cleared := by
  unfold WebCache.downloadImage
  split
  · rename_i d hJoin
    obtain ⟨-, joined, hJoined, -, hLive⟩ := joinable_eq_some hJoin
    intro download hMem
    obtain ⟨k, hk⟩ := List.getElem?_of_mem hMem
    rcases getElem?_modify_cases hk with ⟨rfl, old, hOld, rfl⟩ | ⟨-, hOld⟩
    · obtain rfl := Option.some.inj (hJoined.symm.trans hOld)
      exact fun hCancelled => absurd (hLive.symm.trans hCancelled) (by simp)
    · exact h download (List.mem_of_getElem? hOld)
  · exact forall_mem_concat h fun hCancelled => absurd hCancelled (by simp)

theorem cancelOperation (h : w.Cleared) (i : ℕ) : (w.cancelOperation i).Cleared := by
  unfold WebCache.cancelOperation
  split
  · exact h
  · dsimp only
    split_ifs
    · refine cancelDownload ?_ _ _
      exact h.congr rfl
    · exact h.congr rfl

theorem queryDisk (h : w.Cleared) (i : ℕ) : (w.queryDisk i).Cleared := by
  unfold WebCache.queryDisk
  split
  · exact h
  · split_ifs
    · exact h
    · split
      · exact h.congr rfl
      · exact h.congr rfl

variable [DecidableEq ν]

theorem callCompletionBlock (h : w.Cleared) (i : ℕ) (image : Option ι) :
    (w.callCompletionBlock i image).Cleared := by
  unfold WebCache.callCompletionBlock
  split
  · split_ifs
    · exact h
    · exact h.congr rfl
  · exact h

theorem queried (h : w.Cleared) (i : ℕ) (image : Option ι) : (w.queried i image).Cleared := by
  unfold WebCache.queried
  split
  · exact h
  · split_ifs
    · exact h.congr rfl
    · split
      · exact h.downloadImage _ _
      · rename_i image
        exact (h.callCompletionBlock i (some image)).congr rfl

theorem downloaded (h : w.Cleared) (answer : Except NSError ι) (i : ℕ) :
    (WebCache.downloaded answer w i).Cleared := by
  unfold WebCache.downloaded
  split
  · exact h
  · split_ifs
    · exact h.congr rfl
    · cases answer with
      | error error => exact (h.callCompletionBlock i none).congr rfl
      | ok image =>
        refine congr (callCompletionBlock ?_ i (some image)) rfl
        exact h.congr rfl

theorem setImageWithURL (h : w.Cleared) (v : ν) (url : String) :
    (w.setImageWithURL v url).Cleared := by
  have hIdle : (w.cancelImageLoad v).Cleared := by
    unfold WebCache.cancelImageLoad
    split
    · exact h
    · split_ifs
      · exact h.cancelOperation _
      · exact h
  have hLoaded : ∀ cleared : WebCache ν ι, cleared.Cleared → (cleared.loadImage v url).Cleared := by
    intro cleared hCleared
    unfold WebCache.loadImage
    dsimp only
    split_ifs
    · refine callCompletionBlock ?_ _ none
      exact hCleared.congr rfl
    · split
      · refine queried ?_ _ _
        exact hCleared.congr rfl
      · exact hCleared.congr rfl
  refine congr (hLoaded _ ?_) rfl
  exact hIdle.congr rfl

theorem step (h : w.Cleared) {e : Event ν ι} (hStep : w.step e = some w') : w'.Cleared := by
  cases e with
  | setImageWithURL v url =>
    obtain rfl := Option.some.inj hStep
    exact h.setImageWithURL v url
  | io =>
    obtain ⟨block, ioQueue, hQueue, rfl⟩ := step_io hStep
    cases block with
    | queryDisk i =>
      refine queryDisk ?_ i
      exact h.congr rfl
    | storeImage url image => exact h.congr rfl
  | main =>
    obtain ⟨block, mainQueue, hQueue, rfl⟩ := step_main hStep
    cases block with
    | queried i image =>
      refine queried ?_ i image
      exact h.congr rfl
    | completed callbackBlocks answer =>
      have hInit : ({ w with mainQueue } : WebCache ν ι).Cleared := h.congr rfl
      exact List.foldlRecOn callbackBlocks _ hInit fun x hx i _ => hx.downloaded answer i
  | didComplete d answer =>
    obtain ⟨download, hDownload, hLive, -, rfl⟩ := step_didComplete hStep
    exact forall_mem_set h fun hCancelled => absurd (hLive.symm.trans hCancelled) (by simp)
  | done d =>
    obtain ⟨download, hDownload, -, -, rfl⟩ := step_done hStep
    exact forall_mem_set h fun _ => rfl
  | completionBlock d =>
    obtain ⟨download, hDownload, -, -, rfl⟩ := step_completionBlock hStep
    exact forall_mem_set h (h download (List.mem_of_getElem? hDownload))
  | setImage | removeFromMemory | removeFromDisk =>
    obtain rfl := Option.some.inj hStep
    exact h.congr rfl

end Cleared

variable [DecidableEq ν]

/-- If nothing is left to do, then nothing is on its way. -/
theorem Cleared.atRest (h : w.Cleared) (hIdle : ∀ e w', Event.isOwn e = true → w.step e ≠ some w') :
    w.AtRest := by
  refine ⟨?_, ?_, fun download hMem => ?_⟩
  · cases hQueue : w.ioQueue with
    | nil => rfl
    | cons block ioQueue =>
      have hTaken : w.step .io = some (({ w with ioQueue } : WebCache ν ι).io block) := by
        simp only [WebCache.step, hQueue]
      exact absurd hTaken (hIdle .io _ rfl)
  · cases hQueue : w.mainQueue with
    | nil => rfl
    | cons block mainQueue =>
      have hTaken : w.step .main = some (({ w with mainQueue } : WebCache ν ι).main block) := by
        simp only [WebCache.step, hQueue]
      exact absurd hTaken (hIdle .main _ rfl)
  · obtain ⟨d, hd⟩ := List.getElem?_of_mem hMem
    cases hAnswered : download.answered with
    | true => exact Or.inl rfl
    | false =>
      cases hCancelled : download.isCancelled with
      | true => exact Or.inr (h download hMem hCancelled)
      | false =>
        have hTaken : (w.step (.didComplete d (.error ⟨-1⟩))).isSome = true := by
          simp [WebCache.step, hd, hAnswered, hCancelled]
        obtain ⟨w', hStep⟩ := Option.isSome_iff_exists.mp hTaken
        exact absurd hStep (hIdle _ w' rfl)

/--
**The pictures come to rest.** From every state of every run no run of the pod's own
events is longer than the work, and they lead to a state in which nothing is on its way.
-/
theorem images_come_to_rest {disk : String → Option ι} {es : List (Event ν ι)}
    (hRun : run step (launched disk) es = some w) :
    (∀ fs w', (∀ e ∈ fs, Event.isOwn e = true) → run step w fs = some w' →
      fs.length + w'.work ≤ w.work) ∧
    ∃ fs w', (∀ e ∈ fs, Event.isOwn e = true) ∧ run step w fs = some w' ∧ w'.AtRest := by
  have hStep : ∀ w e w', Event.isOwn (e : Event ν ι) = true → step w e = some w' →
      w'.work < w.work := fun _ _ _ => work_own
  refine ⟨fun fs w' hOwn hFs => run_length_le hStep hOwn hFs, ?_⟩
  have hEnabled : ∀ x : WebCache ν ι, (¬ ∀ e y, Event.isOwn e = true → x.step e ≠ some y) →
      ∃ e y, Event.isOwn e = true ∧ x.step e = some y := by
    intro x hBusy
    push Not at hBusy
    exact hBusy
  obtain ⟨fs, w', hOwn, hFs, hIdle⟩ := exists_rest hStep hEnabled w
  have hCleared : w'.Cleared :=
    (Always.of_step (fun _ _ _ h hStep => Cleared.step h hStep)
      (fun _ hMem => absurd hMem (by simp [launched]))).last (run_trans hRun hFs)
  exact ⟨fs, w', hOwn, hFs, hCleared.atRest hIdle⟩

theorem annIsMissing_comes_to_rest :
    ∃ w, run step (launched fun _ => none) (annIsMissing.take 6) = some w ∧
      (∀ fs w', (∀ e ∈ fs, Event.isOwn e = true) → run step w fs = some w' →
        fs.length + w'.work ≤ w.work) ∧
      ∃ fs w', (∀ e ∈ fs, Event.isOwn e = true) ∧ run step w fs = some w' ∧ w'.AtRest := by
  have hSome : (run step (launched fun _ => none) (annIsMissing.take 6)).isSome = true := by
    decide
  obtain ⟨w, hRun⟩ := Option.isSome_iff_exists.mp hSome
  exact ⟨w, hRun, images_come_to_rest hRun⟩

end WebCache

end AggroApp
