import AggroApp.Screens.Saving

/-!
# AggroApp — the two copies of a profile

The name and the picture of the signed-in account stand in its document and on
the home screen. An edit screen changes the two one after the other: a picked
picture goes to the document at once and to the home screen with the next save,
a name goes to the document with the save and to the home screen when that
write has been answered.

`Copies` is what of the app matters for this, and `Phase` says how the copies
may differ while work is going on, for one screen at a time: nothing going on,
an upload before or after its profile write, or the writes of one save.
-/

namespace AggroApp

open Async

/-- The two copies, and the edit screen in front. -/
structure Copies where
  storedName : String
  storedUrl : String
  homeName : String
  homeUrl : String
  front : Option ℕ
  screen : Option EditProfileViewController

-- ---------------------------------------------------------------------------
-- Tasks
-- ---------------------------------------------------------------------------

/-- The fetch of edit screen `s`. -/
abbrev fetchCall (uid : Uid) (s : ℕ) : AppCall :=
  .getDocument uid (.fetchUserWithFirestore (.edit s))

/-- The write of `updateUserData` for edit screen `s`. -/
abbrev nameCall (uid : Uid) (s : ℕ) (user : User) : AppCall :=
  .updateData uid [("fullname", .string user.fullname)] (.direct (.updateUserData s user))

/-- The profile write of `updateProfileImage` for edit screen `s`. -/
abbrev urlCall (uid : Uid) (s : ℕ) (url : String) : AppCall :=
  .updateData uid [("profileImageUrl", .string url)]
    (.updateProfileImage url (.imagePickerController s))

/-- The write that ends the onboarding. -/
abbrev seenCall (uid : Uid) : AppCall :=
  .updateData uid [("hasSeenOnboarding", .bool true)] (.direct .controllerWantsToDismiss)

abbrev pictureCallback (uid : Uid) (s : ℕ) : StorageCallback Completion ImageCompletion :=
  .updateProfileImage uid (.imagePickerController s)

/-- The completion belongs to an upload or to the write of a save. -/
def Owner.works : Owner Completion UserCompletion ImageCompletion → Bool
  | .outcome (.updateUserData _ _) => true
  | .url _ => true
  | _ => false

/-- An upload or the write of a save that is outstanding. -/
def Task.works : AppTask → Bool
  | .waiting call => call.owner.works
  | .answered call _ => call.owner.works
  | .ended => false

/-- The profile write of an upload or of a save that waits to be carried out. -/
def Task.writes : AppTask → Bool
  | .waiting (.updateData uid data callback) =>
    (Call.updateData uid data callback : AppCall).owner.works
  | _ => false

/-- The completion belongs to an upload. -/
def Owner.isUrl : Owner Completion UserCompletion ImageCompletion → Bool
  | .url _ => true
  | _ => false

/-- An upload that is outstanding. -/
def Task.uploads : AppTask → Bool
  | .waiting call => call.owner.isUrl
  | .answered call _ => call.owner.isUrl
  | .ended => false

theorem Task.works_of_uploads {task : AppTask} (h : task.uploads = true) : task.works = true := by
  have hOwner : ∀ owner : Owner Completion UserCompletion ImageCompletion,
      owner.isUrl = true → owner.works = true := by
    rintro (_ | _ | _) hUrl
    · exact absurd hUrl (by simp [Owner.isUrl])
    · exact absurd hUrl (by simp [Owner.isUrl])
    · rfl
  cases task with
  | waiting call => exact hOwner _ h
  | answered call step => exact hOwner _ h
  | ended => exact absurd h (by simp [Task.uploads])

/-- `user` was read from the document as it is, as far as the screen has not
changed it since. -/
def Copies.Fetched (k : Copies) (c : EditProfileViewController) (user : User) : Prop :=
  (c.fullnameChanged = true ∨ user.fullname = k.storedName) ∧
    (c.imageChanged = true ∨ user.profileImageUrl = k.storedUrl)

/-- Tasks that change neither name nor picture; there are `n` edit screens. -/
inductive Resting (uid : Uid) (k : Copies) (n : ℕ) : AppTask → Prop
  | ended : Resting uid k n .ended
  | reading (s : ℕ) (hScreen : s < n) : Resting uid k n (.waiting (fetchCall uid s))
  | missed (s : ℕ) : Resting uid k n (.answered (fetchCall uid s) .quit)
  | read (s : ℕ) (user : User) (hScreen : s < n)
      (hFetched : k.front = some s → ∀ c ∈ k.screen, k.Fetched c user) :
    Resting uid k n (.answered (fetchCall uid s) (.fetched (.edit s) user))
  | seeing : Resting uid k n (.waiting (seenCall uid))
  | seen (error : Option Error) :
    Resting uid k n (.answered (seenCall uid) (.completed .controllerWantsToDismiss error))

/-- An upload of edit screen `s` whose profile write is still to come. -/
inductive Uploading (uid : Uid) (s : ℕ) : AppTask → Prop
  | storing (filename : Filename) (data : JPEGData) :
    Uploading uid s (.waiting (.putData filename data (pictureCallback uid s)))
  | stored (filename : Filename) (data : JPEGData) :
    Uploading uid s (.answered (.putData filename data (pictureCallback uid s))
      (.wait (.downloadURL filename (pictureCallback uid s))))
  | locating (filename : Filename) :
    Uploading uid s (.waiting (.downloadURL filename (pictureCallback uid s)))
  | lost (filename : Filename) :
    Uploading uid s (.answered (.downloadURL filename (pictureCallback uid s)) .quit)
  | located (filename : Filename) (url : String) :
    Uploading uid s (.answered (.downloadURL filename (pictureCallback uid s))
      (.wait (urlCall uid s url)))
  | writing (url : String) : Uploading uid s (.waiting (urlCall uid s url))

/-- An upload whose profile write has been applied. -/
def written (uid : Uid) (s : ℕ) (url : String) : AppTask :=
  .answered (urlCall uid s url) (.uploaded (.imagePickerController s) url)

/-- A write of a save that has handed out `user`. -/
inductive Saving (uid : Uid) (user : User) : AppTask → Prop
  | saving (s : ℕ) : Saving uid user (.waiting (nameCall uid s user))
  | saved (s : ℕ) :
    Saving uid user (.answered (nameCall uid s user) (.completed (.updateUserData s user) none))

/-- The write has been applied. -/
def Task.isAnswered : AppTask → Bool
  | .answered _ _ => true
  | _ => false

-- ---------------------------------------------------------------------------
-- Phases
-- ---------------------------------------------------------------------------

namespace Copies

/-- The home screen has the stored name, and the stored picture unless the screen
in front has one to hand over. -/
def HomeFollows (k : Copies) : Prop :=
  k.homeName = k.storedName ∧
    (k.homeUrl = k.storedUrl ∨ ∃ c ∈ k.screen, c.viewModel.profileImageUrl.isSome = true)

/-- The picture that the screen in front has to hand over is the stored one. -/
def UrlStored (k : Copies) : Prop :=
  ∀ c ∈ k.screen, ∀ url ∈ c.viewModel.profileImageUrl, url = k.storedUrl

/-- The screen in front has its user from the document, and the name that its flag
stands for. -/
def ScreenSound (k : Copies) : Prop :=
  ∀ c ∈ k.screen, (∀ user ∈ c.user, k.Fetched c user) ∧
    (c.fullnameChanged = true → c.viewModel.fullname.isSome = true)

/-- The screen in front is closed. -/
def closed (k : Copies) : Copies := { k with front := none, screen := none }

/-- The home screen is given `user`. -/
def told (k : Copies) (user : User) : Copies :=
  { k with homeName := user.fullname, homeUrl := user.profileImageUrl }

/-- Nothing is in front after the screen was closed. -/
theorem closed_screen {P : EditProfileViewController → Prop} {k : Copies} :
    ∀ c ∈ k.closed.screen, P c :=
  fun _ hMem => absurd hMem (by simp [closed])

theorem closed_sound {k : Copies} : k.closed.ScreenSound := closed_screen

end Copies

/-- How the copies may differ, by the work that is going on. -/
inductive Phase (uid : Uid) (k : Copies) (n : ℕ) (tasks : List AppTask) : Prop
  | idle (hTasks : ∀ task ∈ tasks, Resting uid k n task) (hHome : k.HomeFollows)
      (hUrl : k.UrlStored)
  | uploading (i s : ℕ) (task : AppTask) (hTask : tasks[i]? = some task)
      (hUploading : Uploading uid s task)
      (hOthers : AllBut (Resting uid k n) tasks i)
      (hFront : k.front = some s) (hImage : ∀ c ∈ k.screen, c.imageChanged = true)
      (hHome : k.HomeFollows) (hUrl : k.UrlStored)
  | written (i s : ℕ) (hTask : tasks[i]? = some (written uid s k.storedUrl))
      (hOthers : AllBut (Resting uid k n) tasks i)
      (hFront : k.front = some s) (hImage : ∀ c ∈ k.screen, c.imageChanged = true)
      (hName : k.homeName = k.storedName)
  | saving (user : User) (i : ℕ) (task : AppTask) (hTask : tasks[i]? = some task)
      (hSaving : Saving uid user task)
      (hTasks : ∀ other ∈ tasks, Resting uid k n other ∨ Saving uid user other)
      (hChanged : ∀ c ∈ k.screen, c.fullnameChanged = true)
      (hSavedUrl : user.profileImageUrl = k.storedUrl) (hUrl : k.UrlStored)
      (hSaved : ∀ other ∈ tasks, Saving uid user other → other.isAnswered = true →
        k.storedName = user.fullname)

variable {uid : Uid} {k k' : Copies} {n n' : ℕ} {tasks : List AppTask}

theorem Resting.works {task : AppTask} (h : Resting uid k n task) : task.works = false := by
  cases h <;> rfl

theorem Resting.uploads {task : AppTask} (h : Resting uid k n task) : task.uploads = false := by
  cases h <;> rfl

theorem Uploading.uploads {s : ℕ} {task : AppTask} (h : Uploading uid s task) :
    task.uploads = true := by
  cases h <;> rfl

theorem Uploading.works {s : ℕ} {task : AppTask} (h : Uploading uid s task) :
    task.works = true :=
  Task.works_of_uploads h.uploads

theorem Saving.works {user : User} {task : AppTask} (h : Saving uid user task) :
    task.works = true := by
  cases h <;> rfl

theorem Saving.uploads {user : User} {task : AppTask} (h : Saving uid user task) :
    task.uploads = false := by
  cases h <;> rfl

/-- A task that works is not at rest. -/
theorem not_resting_of_works {task : AppTask} (h : task.works = true) : ¬ Resting uid k n task := by
  intro hResting
  rw [hResting.works] at h
  exact absurd h (by simp)

/-- Resting tasks stay so when what was read stays right, and screens are added. -/
theorem Resting.mono {task : AppTask} (h : Resting uid k n task) (hn : n ≤ n')
    (hFetched : ∀ s user, s < n → (k.front = some s → ∀ c ∈ k.screen, k.Fetched c user) →
      k'.front = some s → ∀ c ∈ k'.screen, k'.Fetched c user) : Resting uid k' n' task := by
  cases h with
  | ended => exact .ended
  | reading s hScreen => exact .reading s (by omega)
  | missed s => exact .missed s
  | read s user hScreen h => exact .read s user (by omega) (hFetched s user hScreen h)
  | seeing => exact .seeing
  | seen error => exact .seen error

/-- What was read does not depend on what the home screen is told. -/
theorem Resting.told {task : AppTask} {user : User} (h : Resting uid k n task) :
    Resting uid (k.told user) n task :=
  h.mono (Nat.le_refl n) fun _ _ _ hFetched => hFetched

namespace Phase

/-- One resting task follows another. -/
theorem set_resting {i : ℕ} {old new : AppTask} (h : Phase uid k n tasks)
    (hOld : tasks[i]? = some old) (hWas : Resting uid k n old) (hIs : Resting uid k n new) :
    Phase uid k n (tasks.set i new) := by
  have hOther : ∀ {j : ℕ} {task : AppTask}, tasks[j]? = some task → ¬ Resting uid k n task →
      (tasks.set i new)[j]? = some task := by
    intro j task hTask hNot
    have hNe : i ≠ j := by
      rintro rfl
      rw [hOld, Option.some.injEq] at hTask
      exact hNot (hTask ▸ hWas)
    rw [List.getElem?_set_ne hNe, hTask]
  cases h with
  | idle hTasks hHome hUrl => exact .idle (forall_mem_set hTasks hIs) hHome hUrl
  | uploading i₀ s task hTask hUploading hOthers hFront hImage hHome hUrl =>
    exact .uploading i₀ s task (hOther hTask (not_resting_of_works hUploading.works)) hUploading
      (hOthers.set_other hIs i) hFront hImage hHome hUrl
  | written i₀ s hTask hOthers hFront hImage hName =>
    exact .written i₀ s (hOther hTask (not_resting_of_works rfl)) (hOthers.set_other hIs i) hFront
      hImage hName
  | saving user i₀ task hTask hSaving hTasks hChanged hSavedUrl hUrl hSaved =>
    exact .saving user i₀ task (hOther hTask (not_resting_of_works hSaving.works)) hSaving
      (forall_mem_set hTasks (Or.inl hIs)) hChanged hSavedUrl hUrl
      (forall_mem_set hSaved fun hSaves => absurd hIs (not_resting_of_works hSaves.works))

/-- A resting task is started. -/
theorem concat_resting {new : AppTask} (h : Phase uid k n tasks) (hIs : Resting uid k n new) :
    Phase uid k n (tasks ++ [new]) := by
  have hOther : ∀ {j : ℕ} {task : AppTask}, tasks[j]? = some task →
      (tasks ++ [new])[j]? = some task := by
    intro j task hTask
    obtain ⟨hLt, -⟩ := List.getElem?_eq_some_iff.mp hTask
    rw [List.getElem?_append_left hLt, hTask]
  cases h with
  | idle hTasks hHome hUrl => exact .idle (forall_mem_concat hTasks hIs) hHome hUrl
  | uploading i₀ s task hTask hUploading hOthers hFront hImage hHome hUrl =>
    exact .uploading i₀ s task (hOther hTask) hUploading (hOthers.concat hIs) hFront hImage hHome
      hUrl
  | written i₀ s hTask hOthers hFront hImage hName =>
    exact .written i₀ s (hOther hTask) (hOthers.concat hIs) hFront hImage hName
  | saving user i₀ task hTask hSaving hTasks hChanged hSavedUrl hUrl hSaved =>
    exact .saving user i₀ task (hOther hTask) hSaving (forall_mem_concat hTasks (Or.inl hIs))
      hChanged hSavedUrl hUrl
      (forall_mem_concat hSaved fun hSaves => absurd hIs (not_resting_of_works hSaves.works))

/-- The form of the screen in front is edited: its flags only go up, and the
picture that it has to hand over stays. -/
theorem map_screen {f : EditProfileViewController → EditProfileViewController}
    (h : Phase uid k n tasks)
    (hUrlSame : ∀ c, (f c).viewModel.profileImageUrl = c.viewModel.profileImageUrl)
    (hName : ∀ c, c.fullnameChanged = true → (f c).fullnameChanged = true)
    (hImage : ∀ c, c.imageChanged = true → (f c).imageChanged = true) :
    Phase uid { k with screen := k.screen.map f } n tasks := by
  have hScreen : ∀ {P : EditProfileViewController → Prop}, (∀ c ∈ k.screen, P (f c)) →
      ∀ c ∈ k.screen.map f, P c := by
    intro P hP c hMem
    obtain ⟨c₀, hMem₀, rfl⟩ := Option.map_eq_some_iff.mp hMem
    exact hP c₀ hMem₀
  have hRest : ∀ task, Resting uid k n task →
      Resting uid { k with screen := k.screen.map f } n task := by
    intro task hTask
    refine hTask.mono (Nat.le_refl n) fun s user _ hFetched hFront => hScreen fun c hMem => ?_
    obtain ⟨hNameOr, hImageOr⟩ := hFetched hFront c hMem
    exact ⟨hNameOr.imp_left (hName c), hImageOr.imp_left (hImage c)⟩
  have hHome : k.HomeFollows → ({ k with screen := k.screen.map f } : Copies).HomeFollows := by
    rintro ⟨hSameName, hSameUrl | ⟨c, hMem, hSome⟩⟩
    · exact ⟨hSameName, Or.inl hSameUrl⟩
    · exact ⟨hSameName, Or.inr ⟨f c, Option.mem_map_of_mem f hMem, by rw [hUrlSame]; exact hSome⟩⟩
  have hStored : k.UrlStored → ({ k with screen := k.screen.map f } : Copies).UrlStored := by
    refine fun hUrl => hScreen fun c hMem url hMemUrl => ?_
    rw [hUrlSame] at hMemUrl
    exact hUrl c hMem url hMemUrl
  cases h with
  | idle hTasks hFollows hUrl =>
    exact .idle (fun task hMem => hRest task (hTasks task hMem)) (hHome hFollows) (hStored hUrl)
  | uploading i s task hTask hUploading hOthers hFront hChanged hFollows hUrl =>
    exact .uploading i s task hTask hUploading
      (hOthers.mono hRest) hFront
      (hScreen fun c hMem => hImage c (hChanged c hMem)) (hHome hFollows) (hStored hUrl)
  | written i s hTask hOthers hFront hChanged hSame =>
    exact .written i s hTask
      (hOthers.mono hRest) hFront
      (hScreen fun c hMem => hImage c (hChanged c hMem)) hSame
  | saving user i task hTask hSaving hTasks hChanged hSavedUrl hUrl hSaved =>
    exact .saving user i task hTask hSaving
      (fun other hMem => (hTasks other hMem).imp_left (hRest other))
      (hScreen fun c hMem => hName c (hChanged c hMem)) hSavedUrl (hStored hUrl) hSaved

/-- A task that does not work is at rest, in every phase. -/
theorem resting_of_not_works {i : ℕ} {task : AppTask} (h : Phase uid k n tasks)
    (hTask : tasks[i]? = some task) (hWorks : task.works = false) : Resting uid k n task := by
  have hNe : ∀ {i₀ : ℕ} {work : AppTask}, tasks[i₀]? = some work → work.works = true → i ≠ i₀ := by
    rintro i₀ work hWork hTrue rfl
    rw [hTask, Option.some.injEq] at hWork
    rw [← hWork, hWorks] at hTrue
    exact absurd hTrue (by simp)
  cases h with
  | idle hTasks hHome hUrl => exact hTasks task (List.mem_of_getElem? hTask)
  | uploading i₀ s work hWork hUploading hOthers =>
    exact hOthers i task hTask (hNe hWork hUploading.works)
  | written i₀ s hWork hOthers => exact hOthers i task hTask (hNe hWork rfl)
  | saving user i₀ work hWork hSaving hTasks =>
    rcases hTasks task (List.mem_of_getElem? hTask) with hResting | hSaves
    · exact hResting
    · rw [hSaves.works] at hWorks
      exact absurd hWorks (by simp)

/-- With nothing at work, the phase is the idle one. -/
theorem idle_of_not_works (h : Phase uid k n tasks) (hWorks : ∀ task ∈ tasks, task.works = false) :
    (∀ task ∈ tasks, Resting uid k n task) ∧ k.HomeFollows ∧ k.UrlStored := by
  have hAbsurd : ∀ {i : ℕ} {task : AppTask}, tasks[i]? = some task → task.works = true → False := by
    intro i task hTask hTrue
    rw [hWorks task (List.mem_of_getElem? hTask)] at hTrue
    exact absurd hTrue (by simp)
  cases h with
  | idle hTasks hHome hUrl => exact ⟨hTasks, hHome, hUrl⟩
  | uploading i s task hTask hUploading => exact (hAbsurd hTask hUploading.works).elim
  | written i s hTask => exact (hAbsurd hTask rfl).elim
  | saving user i task hTask hSaving => exact (hAbsurd hTask hSaving.works).elim

-- ---------------------------------------------------------------------------
-- From one phase to the next
-- ---------------------------------------------------------------------------

/-- With the screen closed, nothing is expected of what was read for it. -/
theorem resting_closed {task : AppTask} (h : Resting uid k n task) :
    Resting uid k.closed n task :=
  h.mono (Nat.le_refl n) fun _ _ _ _ hFront => absurd hFront (by simp [Copies.closed])

/-- The screen in front is closed with no upload going on and no picture to hand
over. -/
theorem close (h : Phase uid k n tasks) (hUploads : ∀ task ∈ tasks, task.uploads = false)
    (hNothing : ∀ c ∈ k.screen, c.viewModel.profileImageUrl = none) :
    Phase uid k.closed n tasks := by
  cases h with
  | idle hTasks hHome hUrl =>
    refine .idle (fun task hMem => resting_closed (hTasks task hMem)) ⟨hHome.1, ?_⟩
      Copies.closed_screen
    rcases hHome.2 with hSame | ⟨c, hMem, hSome⟩
    · exact Or.inl hSame
    · rw [hNothing c hMem] at hSome
      exact absurd hSome (by simp)
  | uploading i s task hTask hUploading =>
    exact absurd (hUploads task (List.mem_of_getElem? hTask)) (by rw [hUploading.uploads]; simp)
  | written i s hTask =>
    exact absurd (hUploads _ (List.mem_of_getElem? hTask))
      (by simp [AggroApp.written, Task.uploads, Call.owner, Owner.isUrl])
  | saving user i task hTask hSaving hTasks hChanged hSavedUrl hUrl hSaved =>
    exact .saving user i task hTask hSaving
      (fun other hMem => (hTasks other hMem).imp_left resting_closed) Copies.closed_screen hSavedUrl
      Copies.closed_screen hSaved

/-- A new screen is opened while nothing works. -/
theorem opened (hTasks : ∀ task ∈ tasks, Resting uid k n task) (hHome : k.HomeFollows)
    (hScreen : k.screen = none) :
    Phase uid { k with front := some n, screen := some .new } (n + 1)
      (tasks ++ [.waiting (fetchCall uid n)]) := by
  have hNew : ∀ c ∈ some EditProfileViewController.new, c.viewModel.profileImageUrl = none :=
    fun c hMem => Option.mem_some_iff.mp hMem ▸ rfl
  refine .idle (forall_mem_concat (fun task hMem => ?_) (.reading n (by omega))) ⟨hHome.1, ?_⟩ ?_
  · refine (hTasks task hMem).mono (by omega) fun s user hs _ hFront => ?_
    rw [Option.some.injEq] at hFront
    omega
  · rcases hHome.2 with hSame | ⟨c, hMem, -⟩
    · exact Or.inl hSame
    · rw [hScreen] at hMem
      exact absurd hMem (by simp)
  · intro c hMem url hUrl
    rw [hNew c hMem] at hUrl
    exact absurd hUrl (by simp)

/-- An upload is started for the screen in front. -/
theorem start_uploading {s : ℕ} {task : AppTask} (hTasks : ∀ other ∈ tasks, Resting uid k n other)
    (hHome : k.HomeFollows) (hUrl : k.UrlStored) (hTask : Uploading uid s task)
    (hFront : k.front = some s) (hImage : ∀ c ∈ k.screen, c.imageChanged = true) :
    Phase uid k n (tasks ++ [task]) := by
  exact .uploading tasks.length s task List.getElem?_concat_length hTask (.of_concat hTasks) hFront
    hImage hHome hUrl

/-- The upload at work. -/
theorem uploading_of_works {i : ℕ} {task : AppTask} (h : Phase uid k n tasks)
    (hTask : tasks[i]? = some task) (hUploads : task.uploads = true) :
    ∃ s, k.front = some s ∧ (∀ c ∈ k.screen, c.imageChanged = true) ∧
      AllBut (Resting uid k n) tasks i ∧
      (Uploading uid s task ∧ k.HomeFollows ∧ k.UrlStored ∨
        task = AggroApp.written uid s k.storedUrl ∧ k.homeName = k.storedName) := by
  have hWorks : ¬ Resting uid k n task := not_resting_of_works (Task.works_of_uploads hUploads)
  cases h with
  | idle hTasks hHome hUrl => exact absurd (hTasks task (List.mem_of_getElem? hTask)) hWorks
  | uploading i₀ s work hWork hUploading hOthers hFront hImage hHome hUrl =>
    have hSame : i = i₀ := by
      by_contra hNe
      exact hWorks (hOthers i task hTask hNe)
    subst hSame
    rw [hTask, Option.some.injEq] at hWork
    exact ⟨s, hFront, hImage, hOthers, Or.inl ⟨hWork ▸ hUploading, hHome, hUrl⟩⟩
  | written i₀ s hWork hOthers hFront hImage hName =>
    have hSame : i = i₀ := by
      by_contra hNe
      exact hWorks (hOthers i task hTask hNe)
    subst hSame
    rw [hTask, Option.some.injEq] at hWork
    exact ⟨s, hFront, hImage, hOthers, Or.inr ⟨hWork, hName⟩⟩
  | saving user i₀ work hWork hSaving hTasks =>
    rcases hTasks task (List.mem_of_getElem? hTask) with hResting | hSaves
    · exact absurd hResting hWorks
    · exact absurd hUploads (by rw [hSaves.uploads]; simp)

/-- The profile write of the upload is applied. -/
theorem write_url {i s : ℕ} {task : AppTask} {url : String} (hTask : tasks[i]? = some task)
    (hOthers : AllBut (Resting uid k n) tasks i)
    (hFront : k.front = some s) (hImage : ∀ c ∈ k.screen, c.imageChanged = true)
    (hName : k.homeName = k.storedName) :
    Phase uid { k with storedUrl := url } n (tasks.set i (AggroApp.written uid s url)) := by
  obtain ⟨hLt, -⟩ := List.getElem?_eq_some_iff.mp hTask
  refine .written i s (List.getElem?_set_self hLt) (hOthers.set.mono fun other hRest => ?_) hFront
    hImage hName
  refine hRest.mono (Nat.le_refl n) fun t user _ hFetched hFrontEq c hMem => ?_
  exact ⟨(hFetched hFrontEq c hMem).1, Or.inl (hImage c hMem)⟩

/-- The profile write of the upload is answered: the screen in front has the stored
picture to hand over. -/
theorem answer_url {i : ℕ}
    (hOthers : AllBut (Resting uid k n) tasks i)
    (hName : k.homeName = k.storedName) (hScreen : k.screen.isSome = true) :
    Phase uid { k with screen := k.screen.map (.imageUploaded k.storedUrl) } n
      (tasks.set i .ended) := by
  obtain ⟨c, hSome⟩ := Option.isSome_iff_exists.mp hScreen
  refine .idle ((hOthers.mono fun other hRest => ?_).forall_mem_set .ended) ⟨hName, Or.inr ?_⟩ ?_
  · refine hRest.mono (Nat.le_refl n) fun t user _ hFetched hFront c' hMem => ?_
    obtain ⟨c₀, hMem₀, rfl⟩ := Option.map_eq_some_iff.mp hMem
    exact hFetched hFront c₀ hMem₀
  · exact ⟨_, Option.mem_map_of_mem _ hSome, rfl⟩
  · intro c' hMem url hUrl
    obtain ⟨c₀, -, rfl⟩ := Option.map_eq_some_iff.mp hMem
    exact (Option.mem_some_iff.mp hUrl).symm

/-- The writes of a save are started. -/
theorem start_saving {s : ℕ} {user : User} {started : List AppTask}
    (hTasks : ∀ other ∈ tasks, Resting uid k n other) (hUrl : k.UrlStored)
    (hChanged : ∀ c ∈ k.screen, c.fullnameChanged = true)
    (hSavedUrl : user.profileImageUrl = k.storedUrl) (hNe : started ≠ [])
    (hStarted : ∀ task ∈ started, task = .waiting (nameCall uid s user)) :
    Phase uid k n (tasks ++ started) := by
  obtain ⟨task, rest, rfl⟩ := List.exists_cons_of_ne_nil hNe
  have hSaves : ∀ other ∈ task :: rest, Saving uid user other :=
    fun other hMem => hStarted other hMem ▸ .saving s
  refine .saving user tasks.length task (by simp) (hSaves task List.mem_cons_self) ?_ hChanged
    hSavedUrl hUrl ?_
  · intro other hMem
    rcases List.mem_append.mp hMem with hOld | hNew
    · exact Or.inl (hTasks other hOld)
    · exact Or.inr (hSaves other hNew)
  · intro other hMem hSaving hAnswered
    rcases List.mem_append.mp hMem with hOld | hNew
    · exact absurd (hTasks other hOld) (not_resting_of_works hSaving.works)
    · rw [hStarted other hNew] at hAnswered
      exact absurd hAnswered (by simp [Task.isAnswered])

/-- The save at work. -/
theorem saving_of_works {i : ℕ} {task : AppTask} (h : Phase uid k n tasks)
    (hTask : tasks[i]? = some task) (hWorks : task.works = true) (hUploads : task.uploads = false) :
    ∃ user, Saving uid user task ∧
      (∀ other ∈ tasks, Resting uid k n other ∨ Saving uid user other) ∧
      (∀ c ∈ k.screen, c.fullnameChanged = true) ∧ user.profileImageUrl = k.storedUrl ∧
      k.UrlStored ∧ ∀ other ∈ tasks, Saving uid user other → other.isAnswered = true →
        k.storedName = user.fullname := by
  have hNot : ¬ Resting uid k n task := not_resting_of_works hWorks
  have hNotUpload : ∀ {s : ℕ}, ¬ Uploading uid s task := by
    intro s hUploading
    rw [hUploading.uploads] at hUploads
    exact absurd hUploads (by simp)
  cases h with
  | idle hTasks hHome hUrl => exact absurd (hTasks task (List.mem_of_getElem? hTask)) hNot
  | uploading i₀ s work hWork hUploading hOthers =>
    by_cases hSame : i = i₀
    · subst hSame
      rw [hTask, Option.some.injEq] at hWork
      exact absurd (hWork ▸ hUploading) hNotUpload
    · exact absurd (hOthers i task hTask hSame) hNot
  | written i₀ s hWork hOthers =>
    by_cases hSame : i = i₀
    · subst hSame
      rw [hTask, Option.some.injEq] at hWork
      rw [hWork] at hUploads
      exact absurd hUploads (by simp [AggroApp.written, Task.uploads, Call.owner, Owner.isUrl])
    · exact absurd (hOthers i task hTask hSame) hNot
  | saving user i₀ work hWork hSaving hTasks hChanged hSavedUrl hUrl hSaved =>
    rcases hTasks task (List.mem_of_getElem? hTask) with hResting | hSaves
    · exact absurd hResting hNot
    · exact ⟨user, hSaves, hTasks, hChanged, hSavedUrl, hUrl, hSaved⟩

/-- A write of the save is applied. -/
theorem write_name {i s : ℕ} {user : User} {task : AppTask} (hTask : tasks[i]? = some task)
    (hTasks : ∀ other ∈ tasks, Resting uid k n other ∨ Saving uid user other)
    (hChanged : ∀ c ∈ k.screen, c.fullnameChanged = true)
    (hSavedUrl : user.profileImageUrl = k.storedUrl) (hUrl : k.UrlStored) :
    Phase uid { k with storedName := user.fullname } n (tasks.set i
      (.answered (nameCall uid s user) (.completed (.updateUserData s user) none))) := by
  obtain ⟨hLt, -⟩ := List.getElem?_eq_some_iff.mp hTask
  refine .saving user i _ (List.getElem?_set_self hLt) (.saved s) ?_ hChanged hSavedUrl hUrl
    fun _ _ _ _ => rfl
  refine forall_mem_set (fun other hMem => (hTasks other hMem).imp_left fun hResting => ?_)
    (Or.inr (.saved s))
  refine hResting.mono (Nat.le_refl n) fun t user' _ hFetched hFrontEq c hMem => ?_
  exact ⟨Or.inl (hChanged c hMem), (hFetched hFrontEq c hMem).2⟩

/-- A write of the save is answered and the home screen told, which may close the
screen in front. The last answer ends the save. -/
theorem answer_name {i : ℕ} {user : User} {task : AppTask} (hTask : tasks[i]? = some task)
    (hSavingTask : Saving uid user task) (hAnswered : task.isAnswered = true)
    (hTasks : ∀ other ∈ tasks, Resting uid k n other ∨ Saving uid user other)
    (hChanged : ∀ c ∈ k.screen, c.fullnameChanged = true)
    (hSavedUrl : user.profileImageUrl = k.storedUrl) (hUrl : k.UrlStored)
    (hSaved : ∀ other ∈ tasks, Saving uid user other → other.isAnswered = true →
      k.storedName = user.fullname) : Phase uid (k.told user) n (tasks.set i .ended) := by
  have hTasks' : ∀ other ∈ tasks.set i .ended,
      Resting uid (k.told user) n other ∨ Saving uid user other :=
    forall_mem_set (fun other hMem => (hTasks other hMem).imp_left Resting.told) (Or.inl .ended)
  have hName : k.storedName = user.fullname :=
    hSaved task (List.mem_of_getElem? hTask) hSavingTask hAnswered
  by_cases hMore : ∃ other ∈ tasks.set i .ended, Saving uid user other
  · obtain ⟨other, hMem, hSaves⟩ := hMore
    obtain ⟨j, hOther⟩ := List.getElem?_of_mem hMem
    exact .saving user j other hOther hSaves hTasks' hChanged hSavedUrl hUrl fun _ _ _ _ => hName
  · refine .idle (fun other hMem => ?_) ⟨hName.symm, Or.inl hSavedUrl⟩ hUrl
    exact (hTasks' other hMem).resolve_right fun hSaves => hMore ⟨other, hMem, hSaves⟩

/-- Where nothing is expected of the screen, it can be closed. -/
theorem closed_of_told {user : User} (h : Phase uid (k.told user) n tasks)
    (hUploads : ∀ task ∈ tasks, task.uploads = false)
    (hUrl : user.profileImageUrl = k.storedUrl) : Phase uid (k.told user).closed n tasks := by
  cases h with
  | idle hTasks hHome _ =>
    exact .idle (fun task hMem => resting_closed (hTasks task hMem)) ⟨hHome.1, Or.inl hUrl⟩
      Copies.closed_screen
  | uploading i s task hTask hUploading =>
    exact absurd (hUploads task (List.mem_of_getElem? hTask)) (by rw [hUploading.uploads]; simp)
  | written i s hTask =>
    exact absurd (hUploads _ (List.mem_of_getElem? hTask))
      (by simp [AggroApp.written, Task.uploads, Call.owner, Owner.isUrl])
  | saving user' i task hTask hSaving hTasks hChanged hSavedUrl _ hSaved =>
    exact .saving user' i task hTask hSaving
      (fun other hMem => (hTasks other hMem).imp_left resting_closed) Copies.closed_screen hSavedUrl
      Copies.closed_screen hSaved

end Phase

end AggroApp
