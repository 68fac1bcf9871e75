import AggroApp.Screens.ImageViews

/-!
# AggroApp — how loads share downloads

The downloader keeps one entry for each URL. A download that has been answered still
has its entry until it is done, and a download that is over clears the entry of its
URL whoever has it. Both are moments on other threads, so the main thread can come in
between.

## Results

* `loads_answered_iff`   — a load is forgotten exactly when it joins a download that
  has been answered; without that every running load is still to be answered.
* `downloads_shared_iff` — every open download can be joined, and cancelled, exactly as
  long as no download that is over clears the entry of another one.
-/

namespace AggroApp

open Async

variable {ν ι : Type*}

namespace WebCache

variable {w w' : WebCache ν ι} {hand : List ℕ} {i d : ℕ} {url : String} {v : ν}

-- ---------------------------------------------------------------------------
-- Loads that will be answered
-- ---------------------------------------------------------------------------

/-- Every running operation is in one of the queues, among the callbacks of a download
that is still to be answered, or in the hand of the block at work. -/
def Accounted (hand : List ℕ) (w : WebCache ν ι) : Prop :=
  ∀ (i : ℕ) operation, w.operations[i]? = some operation → operation.isRunning = true →
    0 < w.awaits i + hand.count i

namespace Accounted

theorem of_same {hand' : List ℕ} (h : w.Accounted hand) (hOperations : w'.operations = w.operations)
    (hAwaits : ∀ i, w'.awaits i + hand'.count i = w.awaits i + hand.count i) :
    w'.Accounted hand' := by
  intro i operation hOperation hRunning
  rw [hAwaits]
  exact h i operation (hOperations ▸ hOperation) hRunning

theorem safelyRemove (h : w.Accounted (i :: hand)) :
    (w.safelyRemoveOperationFromRunning i).Accounted hand := by
  intro j operation hOperation hRunning
  rcases getElem?_modify_cases hOperation with ⟨rfl, old, -, rfl⟩ | ⟨hNe, hOld⟩
  · exact absurd hRunning (by simp)
  · have hPos := h j operation hOld hRunning
    rwa [List.count_cons_of_ne (Ne.symm hNe)] at hPos

/-- Joining a download forgets the operation if the download has been answered. -/
theorem downloadImage_iff (h : w.Accounted (i :: hand)) (hGood : w.Good (i :: hand))
    {operation : SDWebImageCombinedOperation ν} (hOperation : w.operations[i]? = some operation)
    (hLive : operation.isCancelled = false) :
    (w.downloadImage url i).Accounted hand ↔ w.late url = false := by
  have hOnce := hGood.once i operation hOperation hLive
  have hBool := Bool.toNat_le operation.isRunning
  rw [List.count_cons_self] at hOnce
  constructor
  · intro hAfter
    by_contra hLate
    obtain ⟨new, hNew⟩ : ∃ new, (w.downloadImage url i).operations[i]? = some new := by
      have hLength : i < (w.downloadImage url i).operations.length := by
        rw [← length_urls, urls_downloadImage, length_urls]
        exact (List.getElem?_eq_some_iff.mp hOperation).1
      exact ⟨_, List.getElem?_eq_getElem hLength⟩
    obtain ⟨old, hOld, -, -, -, hFlag⟩ := operations_downloadImage hNew
    obtain rfl := Option.some.inj (hOperation.symm.trans hOld)
    have hRunning : new.isRunning = true := by
      rw [hFlag]
      cases hSame : operation.isRunning with
      | false => rw [hSame, Bool.toNat_false] at hOnce; omega
      | true => rfl
    have hPos := hAfter i new hNew hRunning
    rw [awaits_downloadImage, if_neg (fun hBoth => hLate hBoth.2)] at hPos
    omega
  · intro hLate j new hNew hRunning
    obtain ⟨old, hOld, -, -, -, hFlag⟩ := operations_downloadImage hNew
    have hPos := h j old hOld (hFlag ▸ hRunning)
    rw [List.count_cons] at hPos
    rw [awaits_downloadImage, hLate]
    simp only [beq_iff_eq, eq_comm (a := i), and_true] at hPos ⊢
    omega

variable [DecidableEq ν]

theorem callCompletionBlock (h : w.Accounted hand) (i : ℕ) (image : Option ι) :
    (w.callCompletionBlock i image).Accounted hand := by
  unfold WebCache.callCompletionBlock
  split
  · split_ifs
    · exact h
    · exact h.of_same rfl fun _ => rfl
  · exact h

theorem downloaded (h : w.Accounted (i :: hand)) (hGood : w.Good (i :: hand))
    (answer : Except NSError ι) : (WebCache.downloaded answer w i).Accounted hand := by
  unfold WebCache.downloaded
  split
  · rename_i hNone
    have := hGood.fresh i (List.getElem?_eq_none_iff.mp hNone)
    rw [List.count_cons_self] at this
    omega
  · split_ifs
    · exact h.safelyRemove
    · split
      · have hCalled : (w.callCompletionBlock i none).Accounted (i :: hand) :=
          h.callCompletionBlock i none
        exact (hCalled.of_same rfl fun _ => rfl).safelyRemove
      · rename_i operation _ _ _ image
        have hStored : ({ w with
            memCache := Function.update w.memCache operation.url (some image)
            ioQueue := w.ioQueue ++ [.storeImage operation.url image] } :
            WebCache ν ι).Accounted (i :: hand) :=
          h.of_same rfl fun j => by simp [awaits, IOBlock.awaits]
        exact (hStored.callCompletionBlock i (some image)).safelyRemove

theorem completed {answer : Except NSError ι} {blocks : List ℕ}
    (h : w.Accounted (blocks ++ hand)) (hGood : w.Good (blocks ++ hand)) :
    (blocks.foldl (WebCache.downloaded answer) w).Accounted hand := by
  induction blocks generalizing w with
  | nil => exact h
  | cons i blocks ih =>
    have hFirst := downloaded_proceeds hGood (.trivial w) answer fun _ _ _ _ => trivial
    exact ih (h.downloaded hGood answer) hFirst.good

end Accounted

variable [DecidableEq ν]

/-- The block at the head of the main queue has a load join a download that has been
answered. -/
def joinsLate (w : WebCache ν ι) : Event ν ι → Bool
  | .main =>
    match w.mainQueue with
    | .queried i none :: _ => w.operations[i]?.any fun operation =>
        !operation.isCancelled && w.late operation.url
    | _ => false
  | _ => false

theorem accounted_main (hSound : w.Sound fun _ _ => True) (h : w.Accounted [])
    (hStep : w.step .main = some w') : w'.Accounted [] ↔ w.joinsLate .main = false := by
  obtain ⟨block, rest, hMain, rfl⟩ := step_main hStep
  have hAwaits := awaits_pop_main hMain
  cases block with
  | queried i image =>
    have hCount : ∀ j, ({ w with mainQueue := rest } : WebCache ν ι).awaits j +
        [i].count j = w.awaits j + [].count j := fun j => by
      have := hAwaits j
      rw [MainBlock.awaits] at this
      rw [List.count_singleton, List.count_nil]
      simp only [beq_iff_eq]
      omega
    have hPopped : ({ w with mainQueue := rest } : WebCache ν ι).Accounted [i] :=
      h.of_same rfl hCount
    have hGood : ({ w with mainQueue := rest } : WebCache ν ι).Good [i] :=
      hSound.good.move rfl (fun j => (hCount j).le) (fun _ => rfl) (fun _ => rfl)
        hSound.good.registered hSound.good.handlers
    have hLateIff : w.joinsLate .main = true ↔ ∃ operation, image = none ∧
        w.operations[i]? = some operation ∧ operation.isCancelled = false ∧
        w.late operation.url = true := by
      cases image <;> simp [joinsLate, hMain, Option.any_eq_true]
    rw [← Bool.not_eq_true, hLateIff]
    show (queried _ i image).Accounted [] ↔ _
    unfold queried
    split
    · rename_i hNone
      have := hGood.fresh i (List.getElem?_eq_none_iff.mp hNone)
      rw [List.count_singleton_self] at this
      omega
    · rename_i operation hOperation
      change w.operations[i]? = some operation at hOperation
      split_ifs with hCancelled
      · refine iff_of_true hPopped.safelyRemove ?_
        rintro ⟨other, -, hOther, hLive, -⟩
        obtain rfl := Option.some.inj (hOperation.symm.trans hOther)
        rw [hLive] at hCancelled
        exact absurd hCancelled (by simp)
      · rw [Bool.not_eq_true] at hCancelled
        cases image with
        | none =>
          refine (hPopped.downloadImage_iff hGood hOperation hCancelled).trans ?_
          constructor
          · rintro hEarly ⟨other, -, hOther, -, hLate⟩
            obtain rfl := Option.some.inj (hOperation.symm.trans hOther)
            exact absurd (hEarly.symm.trans hLate) (by simp)
          · intro hEarly
            by_contra hLate
            rw [Bool.not_eq_false] at hLate
            exact hEarly ⟨operation, rfl, hOperation, hCancelled, hLate⟩
        | some image =>
          refine iff_of_true (hPopped.callCompletionBlock i (some image)).safelyRemove ?_
          rintro ⟨-, hNone, -⟩
          exact absurd hNone (by simp)
  | completed blocks answer =>
    have hCount : ∀ j, ({ w with mainQueue := rest } : WebCache ν ι).awaits j +
        (blocks ++ []).count j = w.awaits j + [].count j := fun j => by
      rw [List.append_nil]
      exact hAwaits j
    refine iff_of_true (Accounted.completed (h.of_same rfl hCount) (hSound.good.move rfl
      (fun j => (hCount j).le) (fun _ => rfl) (fun _ => rfl) hSound.good.registered
      hSound.good.handlers)) ?_
    simp [joinsLate, hMain]

theorem accounted_io (hSound : w.Sound fun _ _ => True) (h : w.Accounted [])
    (hStep : w.step .io = some w') : w'.Accounted [] := by
  obtain ⟨block, rest, hIo, rfl⟩ := step_io hStep
  have hAwaits := awaits_pop_io hIo
  cases block with
  | storeImage url image =>
    refine h.of_same rfl fun j => ?_
    rw [← hAwaits j]
    rfl
  | queryDisk i =>
    show (queryDisk _ i).Accounted []
    unfold queryDisk
    split
    · rename_i hNone
      have := hSound.good.fresh i (List.getElem?_eq_none_iff.mp hNone)
      have := hAwaits i
      rw [IOBlock.awaits, if_pos rfl] at this
      omega
    · rename_i operation hOperation
      change w.operations[i]? = some operation at hOperation
      have hPushed : ∀ (image : Option ι) memCache,
          ({ w with
            ioQueue := rest
            memCache := memCache
            mainQueue := w.mainQueue ++ [.queried i image] } : WebCache ν ι).Accounted [] := by
        refine fun image memCache => h.of_same rfl fun j => ?_
        have := hAwaits j
        simp only [awaits, IOBlock.awaits, sum_map_concat, MainBlock.awaits] at this ⊢
        omega
      split_ifs with hCancelled
      · -- the operation that is dropped has been cancelled
        intro j other hOther hRunning
        have hPos := h j other hOther hRunning
        have hNe : i ≠ j := by
          rintro rfl
          obtain rfl := Option.some.inj (hOperation.symm.trans hOther)
          obtain ⟨hLive, -, -⟩ := hSound.good.running i operation hOperation hRunning
          rw [hLive] at hCancelled
          exact absurd hCancelled (by simp)
        have := hAwaits j
        rw [IOBlock.awaits, if_neg hNe] at this
        omega
      · split
        · exact hPushed _ _
        · exact hPushed _ _

theorem accounted_request (hSound : w.Sound fun _ _ => True) (h : w.Accounted []) (v : ν)
    (url : String) : (w.setImageWithURL v url).Accounted [] := by
  rw [setImageWithURL_eq]
  obtain ⟨hGood, hQuiet, -, -, hOthers, -⟩ :=
    cancelImageLoad_spec (S := fun _ _ => True) hSound.good v
  generalize w.cancelImageLoad v = idle at hGood hQuiet hOthers ⊢
  have hIdle : ∀ (j : ℕ) operation, idle.operations[j]? = some operation →
      operation.isRunning = true → 0 < idle.awaits j := by
    intro j operation hj hRunning
    obtain ⟨hOld, hSame⟩ := hOthers j operation hj hRunning
    have hPos := h j operation hOld hRunning
    rw [hSame]
    rwa [List.count_nil, Nat.add_zero] at hPos
  have hCreated : (idle.created v url true).Accounted [idle.operations.length] := by
    intro j operation hj hRunning
    rcases getElem?_concat_cases hj with ⟨rfl, -⟩ | hOld
    · rw [List.count_singleton_self]
      omega
    · exact Nat.add_pos_left (hIdle j operation hOld hRunning) _
  rcases loadImage_cases idle v url with ⟨-, hEq⟩ | ⟨-, ⟨image, -, hEq⟩ | hEq⟩
  · rw [hEq]
    intro j operation hj hRunning
    rcases getElem?_concat_cases hj with ⟨-, rfl⟩ | hOld
    · exact absurd hRunning (by simp)
    · exact hIdle j operation hOld hRunning
  · rw [hEq]
    have hOperation : (idle.created v url true).operations[idle.operations.length]? =
        some ⟨v, url, false, true, false⟩ := List.getElem?_concat_length
    unfold queried
    rw [hOperation]
    exact (hCreated.callCompletionBlock _ (some image)).safelyRemove
  · rw [hEq]
    refine hCreated.of_same rfl fun j => ?_
    simp only [awaits, created, ready, sum_map_concat, IOBlock.awaits, List.count_singleton,
      List.count_nil, beq_iff_eq]
    omega

/-- Only a late join loses a load. -/
theorem accounted_step {e : Event ν ι} (hSound : w.Sound fun _ _ => True) (h : w.Accounted [])
    (hStep : w.step e = some w') : w'.Accounted [] ↔ w.joinsLate e = false := by
  cases e with
  | main => exact accounted_main hSound h hStep
  | io => exact iff_of_true (accounted_io hSound h hStep) rfl
  | setImageWithURL v url =>
    obtain rfl := Option.some.inj hStep
    exact iff_of_true (accounted_request hSound h v url) rfl
  | setImage | removeFromMemory | removeFromDisk =>
    obtain rfl := Option.some.inj hStep
    exact iff_of_true (h.of_same rfl fun _ => rfl) rfl
  | didComplete d answer =>
    obtain ⟨hOperations, -, hAwaits⟩ := awaits_download hStep ⟨d, Or.inl ⟨answer, rfl⟩⟩
    exact iff_of_true (h.of_same hOperations fun j => by rw [hAwaits]) rfl
  | done d =>
    obtain ⟨hOperations, -, hAwaits⟩ := awaits_download hStep ⟨d, Or.inr (Or.inl rfl)⟩
    exact iff_of_true (h.of_same hOperations fun j => by rw [hAwaits]) rfl
  | completionBlock d =>
    obtain ⟨hOperations, -, hAwaits⟩ := awaits_download hStep ⟨d, Or.inr (Or.inr rfl)⟩
    exact iff_of_true (h.of_same hOperations fun j => by rw [hAwaits]) rfl

/--
**Loads are answered.** In every state of a run each running load is in a queue or
with a download that is still to be answered, if and only if no load ever joins a
download between its answer and its end. One that does is never called again.
-/
theorem loads_answered_iff (disk : String → Option ι) (es : List (Event ν ι)) :
    Always WebCache.step (Accounted []) (launched disk) es ↔
      Along WebCache.step (fun w e => w.joinsLate e = false) (launched disk) es := by
  refine always_iff_along (I := Sound fun _ _ => True) (fun x e y hSound hStep => ?_)
    (fun x e y hSound h hStep => accounted_step hSound h hStep)
    (.launched fun _ _ _ => trivial) fun i operation hOperation => ?_
  · exact (hSound.step (e.serves_trivial x) hStep).1
  · exact absurd hOperation (by simp [launched])

-- ---------------------------------------------------------------------------
-- Downloads that can be joined
-- ---------------------------------------------------------------------------

omit [DecidableEq ν]

/-- The download is not over. -/
def Open (w : WebCache ν ι) (d : ℕ) (download : SDWebImageDownloaderOperation) : Prop :=
  w.downloads[d]? = some download ∧ download.isFinished = false ∧ download.isCancelled = false

/-- Each open download is the one that loads of its URL join. -/
def Shares (w : WebCache ν ι) : Prop :=
  ∀ d download, w.Open d download → w.joinable download.url = some d

theorem joinable_iff : w.joinable url = some d ↔
    w.urlOperations url = some d ∧ ∃ download, w.Open d download := by
  constructor
  · intro hJoin
    obtain ⟨hRegistered, download, hDownload, hFinished, hCancelled⟩ := joinable_eq_some hJoin
    exact ⟨hRegistered, download, hDownload, hFinished, hCancelled⟩
  · rintro ⟨hRegistered, download, hDownload, hFinished, hCancelled⟩
    simp [joinable, hRegistered, hDownload, hFinished, hCancelled]

/-- There is at most one open download of a URL. -/
theorem Shares.unique (h : w.Shares) {d' : ℕ} {download download' : SDWebImageDownloaderOperation}
    (hOpen : w.Open d download) (hOpen' : w.Open d' download')
    (hURL : download.url = download'.url) : d = d' := by
  have hJoin := h d download hOpen
  rw [hURL] at hJoin
  exact Option.some.inj (hJoin.symm.trans (h d' download' hOpen'))

/-- Downloads and their entries are left alone. -/
theorem Shares.congr (h : w.Shares) (hDownloads : w'.downloads = w.downloads)
    (hURLs : w'.urlOperations = w.urlOperations) : w'.Shares := by
  intro d download hOpen
  have hOld : w.Open d download := by
    rw [Open, hDownloads] at hOpen
    exact hOpen
  rw [joinable, hURLs, hDownloads]
  exact h d download hOld

/-- One of the downloads goes on, and stays open or not. -/
theorem Shares.set_download (h : w.Shares) {old : SDWebImageDownloaderOperation}
    (hOld : w.downloads[d]? = some old) (new : SDWebImageDownloaderOperation)
    (hURL : new.url = old.url)
    (hOpen : new.isFinished = false → new.isCancelled = false →
      old.isFinished = false ∧ old.isCancelled = false)
    (hDownloads : w'.downloads = w.downloads.set d new)
    (hTable : ∀ e download, w'.Open e download → w.urlOperations download.url = some e →
      w'.urlOperations download.url = some e) : w'.Shares := by
  intro e download hNew
  have hBefore : ∃ before, w.Open e before ∧ before.url = download.url := by
    obtain ⟨hEntry, hFinished, hCancelled⟩ := hNew
    rw [hDownloads] at hEntry
    rcases getElem?_set_cases hEntry with ⟨rfl, rfl⟩ | ⟨-, hOther⟩
    · exact ⟨old, ⟨hOld, hOpen hFinished hCancelled⟩, hURL.symm⟩
    · exact ⟨download, ⟨hOther, hFinished, hCancelled⟩, rfl⟩
  obtain ⟨before, hBefore, hSame⟩ := hBefore
  have hJoin := h e before hBefore
  rw [hSame, joinable_iff] at hJoin
  exact joinable_iff.mpr ⟨hTable e download hNew hJoin.1, download, hNew⟩

theorem Shares.downloadImage (h : w.Shares) (url : String) (i : ℕ) :
    (w.downloadImage url i).Shares := by
  unfold WebCache.downloadImage
  split
  · rename_i d hJoin
    obtain ⟨hRegistered, joined, hJoined, hFinished, hCancelled⟩ := joinable_eq_some hJoin
    have : Inhabited SDWebImageDownloaderOperation := ⟨joined⟩
    refine h.set_download hJoined (joined.addHandlers i) rfl
      (fun _ _ => ⟨hFinished, hCancelled⟩) ?_ fun _ _ _ => id
    show w.downloads.modify d _ = _
    rw [List.modify_eq_set, hJoined]
    rfl
  · rename_i hNone
    intro e download hOpen
    obtain ⟨hEntry, hFlags⟩ := hOpen
    refine joinable_iff.mpr ⟨?_, download, hEntry, hFlags⟩
    change (w.downloads ++ [_])[e]? = some download at hEntry
    show Function.update w.urlOperations url (some w.downloads.length) download.url = some e
    rw [Function.update_apply]
    rcases getElem?_concat_cases hEntry with ⟨rfl, rfl⟩ | hOld
    · rw [if_pos rfl]
    · have hJoin := h e download ⟨hOld, hFlags⟩
      have hNe : download.url ≠ url := fun hSame => by
        rw [hSame, hNone] at hJoin
        exact absurd hJoin (by simp)
      rw [if_neg hNe]
      exact (joinable_iff.mp hJoin).1

end WebCache

namespace SDWebImageDownloaderOperation

theorem cancel_open {download : SDWebImageDownloaderOperation} {token : ℕ}
    (hFinished : (download.cancel token).1.isFinished = false)
    (hCancelled : (download.cancel token).1.isCancelled = false) :
    download.isFinished = false ∧ download.isCancelled = false := by
  simp only [cancel] at hFinished hCancelled
  split_ifs at hFinished hCancelled
  · unfold cancelInternal at hFinished hCancelled
    split_ifs at hFinished hCancelled with hOver
    exact ⟨hFinished, hCancelled⟩
  · exact ⟨hFinished, hCancelled⟩

/-- A download that nobody waits for any more is over. -/
theorem cancel_last {download : SDWebImageDownloaderOperation} {token : ℕ}
    (hLast : (download.cancel token).2 = true)
    (hFinished : (download.cancel token).1.isFinished = false) :
    (download.cancel token).1.isCancelled = true := by
  simp only [cancel] at hLast hFinished ⊢
  split_ifs at hLast hFinished ⊢
  unfold cancelInternal at hFinished ⊢
  split_ifs at hFinished ⊢ with hOver
  · exact absurd (hOver.symm.trans hFinished) (by simp)
  · rfl

end SDWebImageDownloaderOperation

namespace WebCache

variable {w w' : WebCache ν ι} {hand : List ℕ} {i d : ℕ} {url : String} {v : ν}

theorem Shares.cancelDownload (h : w.Shares) (url : String) (token : ℕ) :
    (w.cancelDownload url token).Shares := by
  rcases cancelDownload_cases w url token with
    hSame | ⟨d, download, table, hRegistered, hDownload, hTable, hEq⟩
  · rw [hSame]
    exact h
  · rw [hEq]
    refine h.set_download hDownload _ (download.cancel_spec token).1
      (fun hFinished => SDWebImageDownloaderOperation.cancel_open hFinished) rfl
      fun e other hOpen hBefore => ?_
    rcases hTable with rfl | ⟨hLast, rfl⟩
    · exact hBefore
    · show Function.update w.urlOperations url none other.url = some e
      rw [Function.update_apply]
      split_ifs with hSame
      · -- the entry that is cleared was that of the cancelled download
        obtain rfl := Option.some.inj (hRegistered.symm.trans (hSame ▸ hBefore))
        obtain ⟨hEntry, hFinished, hCancelled⟩ := hOpen
        obtain rfl := Option.some.inj (hEntry.symm.trans
          (List.getElem?_set_self (List.getElem?_eq_some_iff.mp hDownload).1))
        have := SDWebImageDownloaderOperation.cancel_last hLast hFinished
        exact absurd (hCancelled.symm.trans this) (by simp)
      · exact hBefore

theorem Shares.cancelOperation (h : w.Shares) (i : ℕ) : (w.cancelOperation i).Shares := by
  unfold WebCache.cancelOperation
  split
  · exact h
  · rename_i operation hOperation
    have hCancelled : ({ w with
        operations := w.operations.set i { operation with isCancelled := true, isRunning := false }
        } : WebCache ν ι).Shares := h.congr rfl rfl
    dsimp only
    split_ifs
    · exact hCancelled.cancelDownload operation.url i
    · exact hCancelled

variable [DecidableEq ν]

theorem Shares.callCompletionBlock (h : w.Shares) (i : ℕ) (image : Option ι) :
    (w.callCompletionBlock i image).Shares := by
  unfold WebCache.callCompletionBlock
  split
  · split_ifs
    · exact h
    · exact h.congr rfl rfl
  · exact h

theorem Shares.queried (h : w.Shares) (i : ℕ) (image : Option ι) : (w.queried i image).Shares := by
  unfold WebCache.queried
  split
  · exact h
  · split_ifs
    · exact h.congr rfl rfl
    · split
      · exact h.downloadImage _ i
      · exact (h.callCompletionBlock i _).congr rfl rfl

theorem Shares.downloaded (h : w.Shares) (answer : Except NSError ι) (i : ℕ) :
    (WebCache.downloaded answer w i).Shares := by
  unfold WebCache.downloaded
  split
  · exact h
  · split_ifs
    · exact h.congr rfl rfl
    · split
      · exact (h.callCompletionBlock i none).congr rfl rfl
      · rename_i operation _ _ _ image
        have hStored : ({ w with
            memCache := Function.update w.memCache operation.url (some image)
            ioQueue := w.ioQueue ++ [.storeImage operation.url image] } :
            WebCache ν ι).Shares := h.congr rfl rfl
        exact (hStored.callCompletionBlock i (some image)).congr rfl rfl

theorem Shares.completed (h : w.Shares) (answer : Except NSError ι) (blocks : List ℕ) :
    (blocks.foldl (WebCache.downloaded answer) w).Shares := by
  induction blocks generalizing w with
  | nil => exact h
  | cons i blocks ih => exact ih (h.downloaded answer i)

theorem Shares.setImageWithURL (h : w.Shares) (v : ν) (url : String) :
    (w.setImageWithURL v url).Shares := by
  have hIdle : (w.cancelImageLoad v).Shares := by
    unfold cancelImageLoad
    split
    · exact h
    · split_ifs
      · exact (h.cancelOperation _).congr rfl rfl
      · exact h
  have hCreated : ∀ isRunning, ((w.cancelImageLoad v).created v url isRunning).Shares :=
    fun _ => hIdle.congr rfl rfl
  rw [setImageWithURL_eq]
  rcases loadImage_cases (w.cancelImageLoad v) v url with
    ⟨-, hEq⟩ | ⟨-, ⟨image, -, hEq⟩ | hEq⟩
  · rw [hEq]
    exact hCreated false
  · rw [hEq]
    exact (hCreated true).queried _ _
  · rw [hEq]
    exact (hCreated true).congr rfl rfl

/-- A download that is over clears an entry that nobody can join any more. -/
def KeepsOthers (w : WebCache ν ι) : Event ν ι → Prop
  | .completionBlock d => ∀ download, w.downloads[d]? = some download →
      w.joinable download.url = none
  | _ => True

theorem shares_completionBlock (hSound : w.Sound fun _ _ => True) (h : w.Shares)
    (hStep : w.step (.completionBlock d) = some w') :
    w'.Shares ↔ w.KeepsOthers (.completionBlock d) := by
  obtain ⟨ended, hEnded, -, hFlag, rfl⟩ := step_completionBlock hStep
  have hClosed : ∀ download, ¬ w.Open d download := by
    rintro download ⟨hDownload, hFinished, hCancelled⟩
    obtain rfl := Option.some.inj (hEnded.symm.trans hDownload)
    rcases hFlag with hFlag | hFlag
    · exact absurd (hFinished.symm.trans hFlag) (by simp)
    · exact absurd (hCancelled.symm.trans hFlag) (by simp)
  constructor
  · intro hAfter download hDownload
    obtain rfl := Option.some.inj (hEnded.symm.trans hDownload)
    by_contra hJoinable
    obtain ⟨e, hJoin⟩ := Option.ne_none_iff_exists'.mp hJoinable
    obtain ⟨hRegistered, other, hOther⟩ := joinable_iff.mp hJoin
    obtain ⟨other', hEntry, hURL⟩ := hSound.good.registered _ e hRegistered
    obtain rfl := Option.some.inj (hOther.1.symm.trans hEntry)
    have hNe : d ≠ e := fun hSame => hClosed other (hSame ▸ hOther)
    have hStill := hAfter e other ⟨(List.getElem?_set_ne hNe).trans hOther.1, hOther.2⟩
    have hCleared := (joinable_iff.mp hStill).1
    change Function.update w.urlOperations ended.url none other.url = some e at hCleared
    rw [hURL, Function.update_self] at hCleared
    exact absurd hCleared (by simp)
  · intro hNone
    refine h.set_download hEnded { ended with completionBlock := false } rfl
      (fun hFinished hCancelled => ⟨hFinished, hCancelled⟩) rfl fun e download hOpen hBefore => ?_
    show Function.update w.urlOperations ended.url none download.url = some e
    rw [Function.update_apply]
    split_ifs with hSame
    · have hOpenBefore : w.Open e download := by
        obtain ⟨hEntry, hFlags⟩ := hOpen
        rcases getElem?_set_cases hEntry with ⟨rfl, rfl⟩ | ⟨-, hOld⟩
        · exact absurd ⟨hEnded, hFlags⟩ (hClosed ended)
        · exact ⟨hOld, hFlags⟩
      have hJoin := h e download hOpenBefore
      rw [hSame, hNone ended hEnded] at hJoin
      exact absurd hJoin (by simp)
    · exact hBefore

theorem shares_step {e : Event ν ι} (hSound : w.Sound fun _ _ => True) (h : w.Shares)
    (hStep : w.step e = some w') : w'.Shares ↔ w.KeepsOthers e := by
  cases e with
  | setImageWithURL v url =>
    obtain rfl := Option.some.inj hStep
    exact iff_of_true (h.setImageWithURL v url) trivial
  | setImage | removeFromMemory | removeFromDisk =>
    obtain rfl := Option.some.inj hStep
    exact iff_of_true (h.congr rfl rfl) trivial
  | io =>
    obtain ⟨block, rest, hIo, rfl⟩ := step_io hStep
    refine iff_of_true ?_ trivial
    cases block with
    | storeImage url image => exact h.congr rfl rfl
    | queryDisk i =>
      unfold WebCache.io queryDisk
      dsimp only
      split
      · exact h.congr rfl rfl
      · split_ifs
        · exact h.congr rfl rfl
        · split <;> exact h.congr rfl rfl
  | main =>
    obtain ⟨block, rest, hMain, rfl⟩ := step_main hStep
    refine iff_of_true ?_ trivial
    have hPopped : ({ w with mainQueue := rest } : WebCache ν ι).Shares := h.congr rfl rfl
    cases block with
    | queried i image => exact hPopped.queried i image
    | completed blocks answer => exact hPopped.completed answer blocks
  | didComplete d answer =>
    obtain ⟨download, hDownload, -, -, rfl⟩ := step_didComplete hStep
    exact iff_of_true (h.set_download hDownload { download with answered := true } rfl
      (fun hFinished hCancelled => ⟨hFinished, hCancelled⟩) rfl fun _ _ _ => id) trivial
  | done d =>
    obtain ⟨download, hDownload, -, -, rfl⟩ := step_done hStep
    exact iff_of_true (h.set_download hDownload download.done rfl
      (fun hFinished => absurd hFinished (by simp [SDWebImageDownloaderOperation.done])) rfl
      fun _ _ _ => id) trivial
  | completionBlock d => exact shares_completionBlock hSound h hStep

/--
**Downloads are shared.** In every state of a run each open download is the one that
the loads of its URL join, and the one that they cancel, so there is one at most for
each URL, if and only if a download that is over never clears an entry that another
one has taken since.
-/
theorem downloads_shared_iff (disk : String → Option ι) (es : List (Event ν ι)) :
    Always WebCache.step Shares (launched disk) es ↔
      Along WebCache.step KeepsOthers (launched disk) es := by
  refine always_iff_along (I := Sound fun _ _ => True) (fun x e y hSound hStep => ?_)
    (fun x e y hSound h hStep => shares_step hSound h hStep)
    (.launched fun _ _ _ => trivial) fun d download hOpen => ?_
  · exact (hSound.step (e.serves_trivial x) hStep).1
  · exact absurd hOpen.1 (by simp [launched])

end WebCache

end AggroApp
