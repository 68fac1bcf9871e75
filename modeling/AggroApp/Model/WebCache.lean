import Mathlib.Data.Int.Basic
import Mathlib.Data.List.Basic
import Mathlib.Logic.Function.Basic

/-!
# AggroApp — the pictures of the image views

The pod `SDWebImage`, as far as `sd_setImage(with:)` needs it, with the options that
this app uses (none): `UIView+WebCache.m`, `UIView+WebCacheOperation.m`,
`SDWebImageManager.m`, `SDImageCache.m`, `SDWebImageDownloader.m` and
`SDWebImageDownloaderOperation.m`.

A load of an image view asks the memory, then the disk, then the server, and passes
three threads on its way: the main queue, the serial queue of the disk cache, and
those of the downloads. Both queues are kept in the state, in their order; a block on
one of them runs to its end before another event is taken. All loads of a URL share
one download while it lasts. Nobody waits for the end of a load, so a view can be
given another URL, or a picture of its own, while its load is on the way.

The views are numbered by any type, and the pictures are of any type.
-/

namespace AggroApp

-- ---------------------------------------------------------------------------
-- The parts
-- ---------------------------------------------------------------------------

structure NSError where
  code : ℤ
  deriving DecidableEq, Repr

/-- `shouldBlockFailedURL`: not for the errors of a bad connection, nor for a
cancelled download, which is also what a status of 400 or more comes down to. -/
def NSError.shouldBlockFailedURL (error : NSError) : Bool :=
  error.code != -1009 && error.code != -999 && error.code != -1001 && error.code != -1018 &&
    error.code != -1020 && error.code != -1003 && error.code != -1004 && error.code != -1005

structure UIImageView (ι : Type*) where
  image : Option ι
  /-- `sd_imageURL`. -/
  imageURL : Option String
  /-- What `sd_operationDictionary` holds. -/
  loadOperation : Option ℕ

structure SDWebImageCombinedOperation (ν : Type*) where
  view : ν
  url : String
  isCancelled : Bool
  /-- It is one of `runningOperations`, which is all that keeps it in memory. -/
  isRunning : Bool
  /-- It has a `downloadToken`. -/
  downloadToken : Bool

structure SDWebImageDownloaderOperation where
  url : String
  /-- The load operations whose callbacks these are. -/
  callbackBlocks : List ℕ
  isCancelled : Bool
  isFinished : Bool
  /-- The server has answered, and the callbacks have been collected. -/
  answered : Bool
  /-- The `completionBlock` is still to run. -/
  completionBlock : Bool
  deriving DecidableEq, Repr

/-- A block on the `ioQueue` of the cache. -/
inductive IOBlock (ι : Type*)
  | queryDisk (operation : ℕ)
  | storeImage (url : String) (image : ι)

/-- A block on the main queue: the `doneBlock` of a query, or the collected callbacks
of a download. -/
inductive MainBlock (ι : Type*)
  | queried (operation : ℕ) (image : Option ι)
  | completed (callbackBlocks : List ℕ) (answer : Except NSError ι)

structure WebCache (ν ι : Type*) where
  views : ν → UIImageView ι
  operations : List (SDWebImageCombinedOperation ν)
  downloads : List SDWebImageDownloaderOperation
  /-- `URLOperations` of the downloader. -/
  urlOperations : String → Option ℕ
  failedURLs : List String
  memCache : String → Option ι
  diskCache : String → Option ι
  ioQueue : List (IOBlock ι)
  mainQueue : List (MainBlock ι)

variable {ν ι : Type*} [DecidableEq ν]

-- ---------------------------------------------------------------------------
-- The downloader
-- ---------------------------------------------------------------------------

namespace SDWebImageDownloaderOperation

def addHandlers (download : SDWebImageDownloaderOperation) (operation : ℕ) :
    SDWebImageDownloaderOperation :=
  { download with callbackBlocks := download.callbackBlocks ++ [operation] }

def cancelInternal (download : SDWebImageDownloaderOperation) : SDWebImageDownloaderOperation :=
  if download.isFinished then download
  else { download with isCancelled := true, callbackBlocks := [] }

/-- `cancel:`, with its answer whether nobody is left. -/
def cancel (download : SDWebImageDownloaderOperation) (token : ℕ) :
    SDWebImageDownloaderOperation × Bool :=
  let rest := { download with callbackBlocks := download.callbackBlocks.filter (· ≠ token) }
  if rest.callbackBlocks.isEmpty then (rest.cancelInternal, true) else (rest, false)

def done (download : SDWebImageDownloaderOperation) : SDWebImageDownloaderOperation :=
  { download with isFinished := true, callbackBlocks := [] }

end SDWebImageDownloaderOperation

namespace WebCache

/-- The download that new loads of the URL can join. -/
def joinable (w : WebCache ν ι) (url : String) : Option ℕ :=
  (w.urlOperations url).filter fun d => w.downloads[d]?.any fun download =>
    !download.isFinished && !download.isCancelled

/-- `downloadImageWithURL:`, for load operation `i`. -/
def downloadImage (w : WebCache ν ι) (url : String) (i : ℕ) : WebCache ν ι :=
  let operations := w.operations.modify i fun operation => { operation with downloadToken := true }
  match w.joinable url with
  | some d => { w with operations, downloads := w.downloads.modify d (·.addHandlers i) }
  | none =>
    { w with
      operations
      downloads := w.downloads ++ [⟨url, [i], false, false, false, true⟩]
      urlOperations := Function.update w.urlOperations url (some w.downloads.length) }

/-- `cancel:` of the downloader. It goes by the URL. -/
def cancelDownload (w : WebCache ν ι) (url : String) (token : ℕ) : WebCache ν ι :=
  match w.urlOperations url with
  | none => w
  | some d =>
    match w.downloads[d]? with
    | none => w
    | some download =>
      { w with
        downloads := w.downloads.set d (download.cancel token).1
        urlOperations := if (download.cancel token).2 then
            Function.update w.urlOperations url none
          else
            w.urlOperations }

-- ---------------------------------------------------------------------------
-- The manager
-- ---------------------------------------------------------------------------

def setImage (w : WebCache ν ι) (v : ν) (image : Option ι) : WebCache ν ι :=
  { w with views := Function.update w.views v { w.views v with image } }

/-- `callCompletionBlockForOperation:`, down to the view. Without an image the view is
left alone. -/
def callCompletionBlock (w : WebCache ν ι) (i : ℕ) (image : Option ι) : WebCache ν ι :=
  match w.operations[i]?, image with
  | some operation, some image =>
    if operation.isCancelled then w else w.setImage operation.view (some image)
  | _, _ => w

def safelyRemoveOperationFromRunning (w : WebCache ν ι) (i : ℕ) : WebCache ν ι :=
  { w with operations := w.operations.modify i fun operation =>
      { operation with isRunning := false } }

/-- The `doneBlock` of the cache query. -/
def queried (w : WebCache ν ι) (i : ℕ) (image : Option ι) : WebCache ν ι :=
  match w.operations[i]? with
  | none => w
  | some operation =>
    if operation.isCancelled then
      w.safelyRemoveOperationFromRunning i
    else
      match image with
      | none => w.downloadImage operation.url i
      | some image => (w.callCompletionBlock i (some image)).safelyRemoveOperationFromRunning i

/-- `loadImageWithURL:`. The memory answers at once. -/
def loadImage (w : WebCache ν ι) (v : ν) (url : String) : WebCache ν ι :=
  let i := w.operations.length
  if url = "" ∨ url ∈ w.failedURLs then
    ({ w with operations := w.operations ++ [⟨v, url, false, false, false⟩] } :
      WebCache ν ι).callCompletionBlock i none
  else
    let started : WebCache ν ι :=
      { w with operations := w.operations ++ [⟨v, url, false, true, false⟩] }
    match w.memCache url with
    | some image => started.queried i (some image)
    | none => { started with ioQueue := w.ioQueue ++ [.queryDisk i] }

/-- `cancel` of the combined operation. -/
def cancelOperation (w : WebCache ν ι) (i : ℕ) : WebCache ν ι :=
  match w.operations[i]? with
  | none => w
  | some operation =>
    let cancelled : WebCache ν ι := { w with
      operations := w.operations.set i { operation with isCancelled := true, isRunning := false } }
    if operation.downloadToken then cancelled.cancelDownload operation.url i else cancelled

-- ---------------------------------------------------------------------------
-- The views
-- ---------------------------------------------------------------------------

def setLoadOperation (w : WebCache ν ι) (v : ν) (loadOperation : Option ℕ) : WebCache ν ι :=
  { w with views := Function.update w.views v { w.views v with loadOperation } }

/-- `sd_cancelImageLoadOperationWithKey:`. The dictionary holds the operation weakly,
so one that has ended is not found. -/
def cancelImageLoad (w : WebCache ν ι) (v : ν) : WebCache ν ι :=
  match (w.views v).loadOperation with
  | none => w
  | some i =>
    if w.operations[i]?.any (·.isRunning) then
      (w.cancelOperation i).setLoadOperation v none
    else
      w

/-- `sd_internalSetImageWithURL:`. The placeholder is nil. -/
def setImageWithURL (w : WebCache ν ι) (v : ν) (url : String) : WebCache ν ι :=
  let idle := w.cancelImageLoad v
  let cleared : WebCache ν ι := { idle with
    views := Function.update idle.views v
      { idle.views v with image := none, imageURL := some url } }
  (cleared.loadImage v url).setLoadOperation v (some cleared.operations.length)

-- ---------------------------------------------------------------------------
-- The queues
-- ---------------------------------------------------------------------------

/-- `queryDiskBlock`. What is on the disk goes to the memory too. -/
def queryDisk (w : WebCache ν ι) (i : ℕ) : WebCache ν ι :=
  match w.operations[i]? with
  | none => w
  | some operation =>
    if operation.isCancelled then
      w
    else
      match w.diskCache operation.url with
      | some image =>
        { w with
          memCache := Function.update w.memCache operation.url (some image)
          mainQueue := w.mainQueue ++ [.queried i (some image)] }
      | none => { w with mainQueue := w.mainQueue ++ [.queried i none] }

def io (w : WebCache ν ι) : IOBlock ι → WebCache ν ι
  | .queryDisk i => w.queryDisk i
  | .storeImage url image => { w with diskCache := Function.update w.diskCache url (some image) }

/-- The callback of load operation `i` at the end of a download. -/
def downloaded (answer : Except NSError ι) (w : WebCache ν ι) (i : ℕ) : WebCache ν ι :=
  match w.operations[i]? with
  | none => w
  | some operation =>
    if operation.isCancelled then
      w.safelyRemoveOperationFromRunning i
    else
      match answer with
      | .error error =>
        let failed := w.callCompletionBlock i none
        ({ failed with
          failedURLs := if error.shouldBlockFailedURL then operation.url :: w.failedURLs
            else w.failedURLs } : WebCache ν ι).safelyRemoveOperationFromRunning i
      | .ok image =>
        let stored : WebCache ν ι := { w with
          memCache := Function.update w.memCache operation.url (some image)
          ioQueue := w.ioQueue ++ [.storeImage operation.url image] }
        (stored.callCompletionBlock i (some image)).safelyRemoveOperationFromRunning i

def main (w : WebCache ν ι) : MainBlock ι → WebCache ν ι
  | .queried i image => w.queried i image
  | .completed callbackBlocks answer => callbackBlocks.foldl (downloaded answer) w

inductive Event (ν ι : Type*)
  | setImageWithURL (v : ν) (url : String)
  /-- `imageView.image = image`, which SDWebImage does not notice. -/
  | setImage (v : ν) (image : Option ι)
  | io
  | main
  /-- The server's answer to download `d`, decoded. -/
  | didComplete (d : ℕ) (answer : Except NSError ι)
  | done (d : ℕ)
  | completionBlock (d : ℕ)
  /-- The memory cache, or the disk cache, has dropped a picture. -/
  | removeFromMemory (url : String)
  | removeFromDisk (url : String)

/-- The view that the event is an assignment to. -/
def Event.view? : Event ν ι → Option ν
  | .setImageWithURL v _ | .setImage v _ => some v
  | _ => none

def step (w : WebCache ν ι) : Event ν ι → Option (WebCache ν ι)
  | .setImageWithURL v url => some (w.setImageWithURL v url)
  | .setImage v image => some (w.setImage v image)
  | .io =>
    match w.ioQueue with
    | [] => none
    | block :: ioQueue => some (({ w with ioQueue } : WebCache ν ι).io block)
  | .main =>
    match w.mainQueue with
    | [] => none
    | block :: mainQueue => some (({ w with mainQueue } : WebCache ν ι).main block)
  | .didComplete d answer =>
    match w.downloads[d]? with
    | none => none
    | some download =>
      if download.isCancelled || download.answered then
        none
      else
        some { w with
          downloads := w.downloads.set d { download with answered := true }
          mainQueue := w.mainQueue ++ [.completed download.callbackBlocks answer] }
  | .done d =>
    match w.downloads[d]? with
    | none => none
    | some download =>
      if download.answered && !download.isFinished then
        some { w with downloads := w.downloads.set d download.done }
      else
        none
  | .completionBlock d =>
    match w.downloads[d]? with
    | none => none
    | some download =>
      if download.completionBlock && (download.isFinished || download.isCancelled) then
        some { w with
          downloads := w.downloads.set d { download with completionBlock := false }
          urlOperations := Function.update w.urlOperations download.url none }
      else
        none
  | .removeFromMemory url => some { w with memCache := Function.update w.memCache url none }
  | .removeFromDisk url => some { w with diskCache := Function.update w.diskCache url none }

/-- Launched, with what the disk holds. -/
def launched (diskCache : String → Option ι) : WebCache ν ι where
  views _ := ⟨none, none, none⟩
  operations := []
  downloads := []
  urlOperations _ := none
  failedURLs := []
  memCache _ := none
  diskCache := diskCache
  ioQueue := []
  mainQueue := []

-- ---------------------------------------------------------------------------
-- What the threads can do
-- ---------------------------------------------------------------------------

variable {w w' : WebCache ν ι} {d : ℕ}

theorem step_io (hStep : w.step .io = some w') :
    ∃ block ioQueue, w.ioQueue = block :: ioQueue ∧
      w' = ({ w with ioQueue } : WebCache ν ι).io block := by
  unfold step at hStep
  dsimp only at hStep
  split at hStep
  · exact absurd hStep (by simp)
  · rename_i block ioQueue hQueue
    exact ⟨block, ioQueue, hQueue, (Option.some.inj hStep).symm⟩

theorem step_main (hStep : w.step .main = some w') :
    ∃ block mainQueue, w.mainQueue = block :: mainQueue ∧
      w' = ({ w with mainQueue } : WebCache ν ι).main block := by
  unfold step at hStep
  dsimp only at hStep
  split at hStep
  · exact absurd hStep (by simp)
  · rename_i block mainQueue hQueue
    exact ⟨block, mainQueue, hQueue, (Option.some.inj hStep).symm⟩

theorem step_didComplete {answer : Except NSError ι}
    (hStep : w.step (.didComplete d answer) = some w') :
    ∃ download, w.downloads[d]? = some download ∧ download.isCancelled = false ∧
      download.answered = false ∧ w' = { w with
        downloads := w.downloads.set d { download with answered := true }
        mainQueue := w.mainQueue ++ [.completed download.callbackBlocks answer] } := by
  unfold step at hStep
  dsimp only at hStep
  split at hStep
  · exact absurd hStep (by simp)
  · rename_i download hDownload
    obtain ⟨hOpen, hEq⟩ := Option.ite_none_left_eq_some.mp hStep
    simp only [Bool.or_eq_true, not_or, Bool.not_eq_true] at hOpen
    exact ⟨download, hDownload, hOpen.1, hOpen.2, (Option.some.inj hEq).symm⟩

theorem step_done (hStep : w.step (.done d) = some w') :
    ∃ download, w.downloads[d]? = some download ∧ download.answered = true ∧
      download.isFinished = false ∧
      w' = { w with downloads := w.downloads.set d download.done } := by
  unfold step at hStep
  dsimp only at hStep
  split at hStep
  · exact absurd hStep (by simp)
  · rename_i download hDownload
    obtain ⟨hOver, hEq⟩ := Option.ite_none_right_eq_some.mp hStep
    simp only [Bool.and_eq_true, Bool.not_eq_true'] at hOver
    exact ⟨download, hDownload, hOver.1, hOver.2, (Option.some.inj hEq).symm⟩

theorem step_completionBlock (hStep : w.step (.completionBlock d) = some w') :
    ∃ download, w.downloads[d]? = some download ∧ download.completionBlock = true ∧
      (download.isFinished = true ∨ download.isCancelled = true) ∧ w' = { w with
        downloads := w.downloads.set d { download with completionBlock := false }
        urlOperations := Function.update w.urlOperations download.url none } := by
  unfold step at hStep
  dsimp only at hStep
  split at hStep
  · exact absurd hStep (by simp)
  · rename_i download hDownload
    obtain ⟨hOver, hEq⟩ := Option.ite_none_right_eq_some.mp hStep
    simp only [Bool.and_eq_true, Bool.or_eq_true] at hOver
    exact ⟨download, hDownload, hOver.1, hOver.2, (Option.some.inj hEq).symm⟩

end WebCache

end AggroApp
