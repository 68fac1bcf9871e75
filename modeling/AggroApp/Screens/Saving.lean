import AggroApp.Screens.Loader

/-!
# AggroApp — saving without a trap

`updateUserData` unwraps the picture URL by force once a picture has been
picked, although the URL arrives only when the upload is over. The loader that
covers the save button until then is the shared one, so anything that hides it
in the meantime opens the way to the trap. The name is safe: it is set together
with its flag.

* `uncoveredSave_traps` — the home screen's fetch hides the loader, and a save
  traps.
* `saving_never_traps`  — as long as nothing else hides the loader while the
  screen waits for its URL, no save does.
-/

namespace AggroApp

open Async

variable {parses : URLParser} {a a' : App}

/-- No save has unwrapped a missing value. -/
def App.SavesIntact (a : App) : Prop :=
  a.trapped ≠ some .profileImageUrl ∧ a.trapped ≠ some .fullname

-- ---------------------------------------------------------------------------
-- Waiting for the URL
-- ---------------------------------------------------------------------------

/-- A picture was picked, and no URL has arrived. -/
def EditProfileViewController.awaitsURL (c : EditProfileViewController) : Bool :=
  c.imageChanged && c.viewModel.profileImageUrl.isNone

namespace App

/-- The edit screen that is presented, with or without its image picker. -/
def front (a : App) : Option ℕ :=
  match a.presented with
  | some (.edit s) => some s
  | some (.imagePicker s) => some s
  | _ => none

/-- The edit screen in front waits for the URL of its picture. -/
def awaitsURL (a : App) : Bool :=
  (a.front.bind fun s => a.edits[s]?).any EditProfileViewController.awaitsURL

/-- The step delivers the URL of an upload to the screen in front. -/
def bringsURL (a : App) : AppStep → Prop
  | .uploaded (.imagePickerController s) _ => a.front = some s
  | _ => False

/-- While the edit screen in front waits for its URL, no callback but the one that
brings it hides the loader. -/
def KeepsCover (parses : URLParser) (a : App) : Event → Prop
  | .deliver i =>
    match a.net.tasks[i]? with
    | some (.answered _ step) =>
      a.awaitsURL = true → a.setsLoader parses step = some false → a.bringsURL step
    | _ => True
  | _ => True

instance (a : App) (step : AppStep) : Decidable (a.bringsURL step) := by
  unfold bringsURL
  split <;> infer_instance

instance (a : App) (e : Event) : Decidable (a.KeepsCover parses e) := by
  unfold KeepsCover
  split
  · split <;> infer_instance
  · infer_instance

end App

-- ---------------------------------------------------------------------------
-- The uncovered button
-- ---------------------------------------------------------------------------

/-- The home screen's fetch of the launch is slow. Meanwhile the user types a name
in an edit screen and picks a picture; the fetch arrives before the URL does and
hides the loader. -/
def uncoveredSave : List App.Event :=
  [.handleEditProfile, .perform 1 .success, .deliver 1, .handleUpdateUserFullname "Anna",
   .handleChangeProfilePhoto, .imagePickerController (some ⟨"pixels", true⟩) "name",
   .perform 0 .success, .deliver 0, .handleDone]

/-- With the values there that the flags stand for, a save has no trap in it. -/
theorem EditProfileViewController.updateUserData_no_trap {c : EditProfileViewController}
    (hImage : c.awaitsURL = false)
    (hName : c.fullnameChanged = true → c.viewModel.fullname.isSome = true) (what : ForceUnwrap) :
    Effect.trap what ∉ c.updateUserData := by
  have hUrl : c.imageChanged = true → ∃ url, c.viewModel.profileImageUrl = some url := by
    intro hChanged
    rw [awaitsURL, hChanged, Bool.true_and, Option.isNone_eq_false_iff] at hImage
    exact Option.isSome_iff_exists.mp hImage
  have hBoth : ∀ user, Effect.trap what ∉ c.saveBoth user := by
    intro user
    unfold saveBoth
    split
    · rename_i hChanged
      rw [Bool.and_eq_true] at hChanged
      obtain ⟨url, hSome⟩ := hUrl hChanged.2
      obtain ⟨fullname, hFullname⟩ := Option.isSome_iff_exists.mp (hName hChanged.1)
      simp [hSome, hFullname]
    · simp
  have hFull : ∀ user, Effect.trap what ∉ c.saveFullname user := by
    intro user
    unfold saveFullname
    split
    · rename_i hChanged
      obtain ⟨fullname, hFullname⟩ := Option.isSome_iff_exists.mp (hName hChanged)
      simp [hFullname, hBoth]
    · exact hBoth user
  unfold updateUserData
  split
  · simp
  · rename_i user hUser
    split
    · rename_i hChanged
      obtain ⟨url, hSome⟩ := hUrl hChanged
      simp [hSome, hFull]
    · exact hFull user

/-- The only callback that can trap is that of the Google sign-in's read. -/
theorem Answered.trap {b b' : Backend} {call : AppCall} {outcome : Outcome} {step : AppStep}
    (h : Answered b call outcome b' step) {what : ForceUnwrap} (hTrap : step = .trap what) :
    what = .snapshot := by
  cases h with
  | authFailed request callback error =>
    cases callback <;> simp [AuthCallback.run] at hTrap
  | authenticated request callback user =>
    cases callback <;> simp [AuthCallback.run] at hTrap
  | readFailed uid callback error =>
    cases callback with
    | signInWitnGoogleFirestore user completion => exact (Step.trap.inj hTrap).symm
    | fetchUserWithFirestore comletion => simp [DocumentCallback.run] at hTrap
  | read uid callback =>
    cases callback with
    | signInWitnGoogleFirestore user completion =>
      rcases DocumentCallback.run_signIn user completion _ _ hTrap with
        hEq | hEq | hEq | ⟨email, fullname, url, hEq⟩
      · exact Step.trap.inj hEq
      all_goals exact absurd hEq (by simp)
    | fetchUserWithFirestore comletion =>
      unfold DocumentCallback.run at hTrap
      cases hDoc : b.users uid <;> simp [hDoc] at hTrap
  | updateFailed uid data callback error => cases callback <;> simp [UpdateCallback.run] at hTrap
  | updated uid data callback doc hDoc => cases callback <;> simp [UpdateCallback.run] at hTrap
  | locateFailed filename callback error => simp [StorageCallback.run] at hTrap
  | located filename callback image hImage =>
    cases callback <;>
      simp [StorageCallback.run, Service.registerUserWithFirestore] at hTrap
  | observed uid callback =>
    cases callback with
    | signInWithGoogle user completion =>
      rcases EventCallback.run_signIn user completion uid _ hTrap with
        hEq | hEq | ⟨email, fullname, hEq⟩ <;> exact absurd hEq (by simp)
    | fetchUser comletion =>
      unfold EventCallback.run at hTrap
      cases hNode : (b.database uid).bind Node.dictionary <;> simp [hNode] at hTrap
  | _ => exact absurd hTrap (by simp [StorageCallback.stored, Service.signInWitnGoogleFirestore])

/-- If the task is about to trap, it is on that read. -/
def Task.TrapsOnSnapshot : AppTask → Prop
  | .answered _ (.trap what) => what = .snapshot
  | _ => True

theorem Task.trapsOnSnapshot_ofStep (step : AppStep) : (Task.ofStep step).TrapsOnSnapshot := by
  cases step <;> trivial

theorem App.trapsOnSnapshot_step {e : App.Event} (h : ∀ task ∈ a.net.tasks, task.TrapsOnSnapshot)
    (hStep : a.step parses e = some a') : ∀ task ∈ a'.net.tasks, task.TrapsOnSnapshot := by
  refine App.step_tasks ?_ ?_ ?_ h hStep
  · exact fun _ _ => Task.trapsOnSnapshot_ofStep _
  · intro b call outcome b' step hAnswered _
    cases step with
    | trap what => exact hAnswered.trap rfl
    | _ => trivial
  · exact fun _ step _ => Task.trapsOnSnapshot_ofStep step

-- ---------------------------------------------------------------------------
-- The screen in front
-- ---------------------------------------------------------------------------

namespace App

theorem setUser_front (user : User) : (a.setUser parses user).front = a.front := by
  rw [setUser_eq]
  cases user.hasSeenOnboarding with
  | true => rfl
  | false =>
    unfold front
    cases hPresented : a.presented with
    | none => rfl
    | some screen => rfl

theorem dismissEdit_front (s : ℕ) :
    (a.dismissEdit s).front = a.front ∨ (a.dismissEdit s).front = none := by
  unfold front dismissEdit
  cases a.presented with
  | none => exact Or.inl rfl
  | some screen =>
    cases screen with
    | edit t =>
      by_cases hScreen : t = s
      · exact Or.inr (by simp [dismissed, hScreen])
      · exact Or.inl (by simp [dismissed, hScreen])
    | imagePicker t =>
      by_cases hScreen : t = s
      · exact Or.inl (by simp [dismissed, hScreen])
      · exact Or.inl (by simp [dismissed, hScreen])
    | _ => exact Or.inl rfl

theorem awaitsURL_mono (hFront : a'.front = a.front ∨ a'.front = none)
    (hEdits : a'.edits = a.edits) (h : a'.awaitsURL = true) : a.awaitsURL = true := by
  unfold awaitsURL at h ⊢
  rw [hEdits] at h
  rcases hFront with hSame | hNone
  · rwa [hSame] at h
  · rw [hNone] at h
    exact absurd h (by simp)

theorem awaitsURL_of_front_none (h : a.front = none) : a.awaitsURL = false := by
  rw [awaitsURL, h]
  rfl

theorem wantsToUpdate_awaitsURL {s : ℕ} {user : User}
    (h : (a.wantsToUpdate parses s user).awaitsURL = true) : a.awaitsURL = true := by
  rw [wantsToUpdate_eq] at h
  have hDismissed : (a.dismissEdit s).awaitsURL = true :=
    awaitsURL_mono (Or.inl (setUser_front user)) (setUser_edits user) h
  exact awaitsURL_mono (dismissEdit_front s) rfl hDismissed

theorem updateEdit_awaitsURL {s : ℕ} {f : EditProfileViewController → EditProfileViewController}
    (hf : ∀ c, (f c).awaitsURL = true → c.awaitsURL = true)
    (h : (a.updateEdit s f).awaitsURL = true) : a.awaitsURL = true := by
  have hFront : (a.updateEdit s f).front = a.front := rfl
  unfold awaitsURL at h ⊢
  rw [hFront] at h
  cases hScreen : a.front with
  | none => rw [hScreen] at h; exact absurd h (by simp)
  | some t =>
    rw [hScreen, Option.bind_some, updateEdit, List.getElem?_modify] at h
    rw [Option.bind_some]
    cases hEdit : a.edits[t]? with
    | none => rw [hEdit] at h; exact absurd h (by simp)
    | some c =>
      rw [hEdit, Option.map_eq_map, Option.map_some, Option.any_some] at h
      rw [Option.any_some]
      split_ifs at h
      · exact hf c h
      · exact h

/-- No callback makes a screen wait. -/
theorem take_awaitsURL {step : AppStep} (h : (a.take parses step).awaitsURL = true) :
    a.awaitsURL = true := by
  have hDismissed : (a.authenticationComplete).awaitsURL = false := awaitsURL_of_front_none rfl
  cases step with
  | completed completion error =>
    cases completion with
    | handleLogin | handleSignUp =>
      cases error with
      | some error => exact h
      | none => exact absurd h (by rw [take, complete, finishAuthentication,
          awaitsURL_of_front_none rfl]; simp)
    | handleGoogleLogin => exact absurd h (by rw [take, complete, hDismissed]; simp)
    | handleResetPassword => cases error <;> exact h
    | controllerWantsToDismiss =>
      rw [take, complete] at h
      cases hUser : a.user with
      | none => rw [hUser] at h; exact h
      | some user =>
        rw [hUser] at h
        exact awaitsURL_mono (Or.inl (setUser_front _)) (setUser_edits _) h
    | updateUserData s user => exact wantsToUpdate_awaitsURL h
  | fetched comletion user =>
    cases comletion with
    | home => exact awaitsURL_mono (Or.inl (setUser_front user)) (setUser_edits user) h
    | edit s =>
      refine updateEdit_awaitsURL (fun c hc => ?_) h
      obtain ⟨-, hViewModel, -, hImage⟩ := EditProfileViewController.setUser_fields parses user c
      unfold EditProfileViewController.awaitsURL at hc ⊢
      rwa [hViewModel, hImage] at hc
  | uploaded completion url =>
    have hUploaded : (a.updateEdit completion.1 (.imageUploaded url)).awaitsURL = true := h
    refine updateEdit_awaitsURL (fun c hc => absurd hc ?_) hUploaded
    simp [EditProfileViewController.awaitsURL, EditProfileViewController.imageUploaded,
      EditProfileViewController.updateForm]
  | _ => exact h

/-- The screen that gets its URL no longer waits for it. -/
theorem bringsURL_awaitsURL {step : AppStep} (h : a.bringsURL step) :
    (a.take parses step).awaitsURL = false := by
  unfold bringsURL at h
  split at h
  · rename_i s url
    have hEdits : (a.take parses (.uploaded (.imagePickerController s) url)).edits =
        a.edits.modify s (.imageUploaded url) := rfl
    have hFront : (a.take parses (.uploaded (.imagePickerController s) url)).front = a.front := rfl
    rw [awaitsURL, hFront, hEdits, h, Option.bind_some, List.getElem?_modify_eq]
    cases a.edits[s]? with
    | none => rfl
    | some c => exact Bool.and_false _
  · exact h.elim

-- ---------------------------------------------------------------------------
-- The invariant
-- ---------------------------------------------------------------------------

/-- No save has trapped; a changed name is in the view model; and a screen in
front that waits for its URL is covered by the loader. -/
structure Covered (a : App) : Prop where
  intact : a.SavesIntact
  fullname : ∀ c ∈ a.edits, c.fullnameChanged = true → c.viewModel.fullname.isSome = true
  cover : a.awaitsURL = true → a.hud = true

namespace Covered

/-- A change after which fewer screens wait, under the same loader. -/
theorem frame (h : a.Covered) (hTrapped : a'.trapped = a.trapped) (hEdits : a'.edits = a.edits)
    (hFront : a'.front = a.front ∨ a'.front = none) (hHud : a'.hud = a.hud) : a'.Covered where
  intact := by rw [SavesIntact, hTrapped]; exact h.intact
  fullname := by rw [hEdits]; exact h.fullname
  cover := fun hAwaits => by rw [hHud]; exact h.cover (awaitsURL_mono hFront hEdits hAwaits)

/-- A change that shows the loader covers everything. -/
theorem of_shown (h : a.Covered) (hTrapped : a'.trapped = a.trapped)
    (hFullname : ∀ c ∈ a'.edits, c.fullnameChanged = true → c.viewModel.fullname.isSome = true)
    (hHud : a'.hud = true) : a'.Covered :=
  ⟨by rw [SavesIntact, hTrapped]; exact h.intact, hFullname, fun _ => hHud⟩

theorem launch (net : AppNet) (log : List Notice) : (App.launch net log).Covered := by
  have hLoaded : (loaded net.restart log).Covered :=
    ⟨⟨by simp [loaded], by simp [loaded]⟩, by simp [loaded], fun hAwaits => absurd hAwaits (by
      rw [awaitsURL_of_front_none rfl]; simp)⟩
  unfold App.launch authenticateUSer
  split
  · exact hLoaded.frame rfl rfl (Or.inr rfl) rfl
  · exact hLoaded.frame rfl rfl (Or.inl rfl) rfl

theorem take_trapped (step : AppStep) (hTrap : ∀ what, step ≠ .trap what) :
    (a.take parses step).trapped = a.trapped := by
  cases step with
  | trap what => exact absurd rfl (hTrap what)
  | completed completion error =>
    cases completion with
    | handleLogin | handleSignUp | handleResetPassword => cases error <;> rfl
    | handleGoogleLogin => rfl
    | controllerWantsToDismiss =>
      rw [take, complete]
      cases a.user with
      | none => rfl
      | some user => exact setUser_trapped _
    | updateUserData s user =>
      rw [take, complete, wantsToUpdate_eq]
      exact setUser_trapped user
  | fetched comletion user =>
    cases comletion with
    | home => exact setUser_trapped user
    | edit s => rfl
  | _ => rfl

/-- No callback raises a change flag. -/
theorem take_fullname (step : AppStep)
    (h : ∀ c ∈ a.edits, c.fullnameChanged = true → c.viewModel.fullname.isSome = true) :
    ∀ c ∈ (a.take parses step).edits,
      c.fullnameChanged = true → c.viewModel.fullname.isSome = true := by
  cases step with
  | completed completion error =>
    cases completion with
    | handleLogin | handleSignUp | handleResetPassword => cases error <;> exact h
    | handleGoogleLogin => exact h
    | controllerWantsToDismiss =>
      rw [take, complete]
      cases a.user with
      | none => exact h
      | some user => rwa [setUser_edits]
    | updateUserData s user =>
      rw [take, complete, wantsToUpdate_eq, setUser_edits]
      exact h
  | fetched comletion user =>
    cases comletion with
    | home => rwa [take, App.fetched, setUser_edits]
    | edit s =>
      refine forall_mem_modify h fun c hc => ?_
      obtain ⟨-, hViewModel, hChanged, -⟩ :=
        EditProfileViewController.setUser_fields parses user c
      rwa [hViewModel, hChanged]
  | uploaded completion url => exact forall_mem_modify h fun c hc => hc
  | _ => exact h

theorem deliver (h : a.Covered) {i : ℕ} {call : AppCall} {step : AppStep}
    (hTraps : (Task.answered call step).TrapsOnSnapshot)
    (hCover : a.awaitsURL = true → a.setsLoader parses step = some false → a.bringsURL step) :
    ((a.receive i step).take parses step).Covered where
  intact := by
    cases step with
    | trap what =>
      have hWhat : what = .snapshot := hTraps
      exact hWhat ▸ ⟨by simp [take, trap], by simp [take, trap]⟩
    | _ =>
      rw [SavesIntact, take_trapped _ (by simp)]
      exact h.intact
  fullname := take_fullname step h.fullname
  cover := by
    intro hAwaits
    have hReceived : (a.receive i step).awaitsURL = true := take_awaitsURL hAwaits
    have hBefore : a.awaitsURL = true := hReceived
    have hSets : (a.receive i step).setsLoader parses step = a.setsLoader parses step := rfl
    rw [take_hud, hSets]
    cases hLoader : a.setsLoader parses step with
    | none => exact h.cover hBefore
    | some displayed =>
      cases displayed with
      | true => rfl
      | false =>
        -- only the URL itself may hide the loader, and then nobody waits any more
        have hBrings : (a.receive i step).bringsURL step := hCover hBefore hLoader
        rw [bringsURL_awaitsURL hBrings] at hAwaits
        exact absurd hAwaits (by simp)

/-- The button is pressed with the loader out of the way, so nothing is missing. -/
theorem handleDone (h : a.Covered) {s : ℕ} {c : EditProfileViewController}
    (hEdit : a.presented = some (.edit s)) (hScreen : a.edits[s]? = some c)
    (hHud : a.hud = false) : (a.handleDone parses s c).Covered := by
  have hNobody : a.awaitsURL = false := by
    rw [← Bool.not_eq_true]
    intro hAwaits
    exact absurd (h.cover hAwaits) (by rw [hHud]; simp)
  have hFront : a.front = some s := by rw [front, hEdit]
  have hImage : c.awaitsURL = false := by
    rw [awaitsURL, hFront, Option.bind_some, hScreen, Option.any_some] at hNobody
    exact hNobody
  have hNoTrap := fun what => EditProfileViewController.updateUserData_no_trap hImage
    (h.fullname c (List.mem_of_getElem? hScreen)) what
  have hKept : (a.handleDone parses s c).trapped = a.trapped ∧
      (a.handleDone parses s c).edits = a.edits ∧
      (a.handleDone parses s c).awaitsURL = false := by
    refine handleDone_keeps (I := fun b => b.trapped = a.trapped ∧ b.edits = a.edits ∧
      b.awaitsURL = false) ⟨rfl, rfl, hNobody⟩ ?_
    rintro b ⟨hTrapped, hEdits, hIdle⟩ effect hEffect
    cases effect with
    | wantsToUpdate user =>
      refine ⟨?_, ?_, ?_⟩
      · rw [save, wantsToUpdate_eq, setUser_trapped]
        exact hTrapped
      · rw [save, wantsToUpdate_eq, setUser_edits]
        exact hEdits
      · rw [← Bool.not_eq_true]
        intro hAwaits
        exact absurd (wantsToUpdate_awaitsURL hAwaits) (by rw [hIdle]; simp)
    | updateUserData user => exact ⟨hTrapped, hEdits, hIdle⟩
    | trap what => exact absurd hEffect (hNoTrap what)
  obtain ⟨hTrapped, hEdits, hIdle⟩ := hKept
  refine ⟨?_, ?_, fun hAwaits => absurd hAwaits (by rw [hIdle]; simp)⟩
  · rw [SavesIntact, hTrapped]
    exact h.intact
  · rw [hEdits]
    exact h.fullname

theorem step {e : Event} (h : a.Covered) (hTraps : ∀ task ∈ a.net.tasks, task.TrapsOnSnapshot)
    (hCover : a.KeepsCover parses e) (hStep : a.step parses e = some a') : a'.Covered := by
  cases step_stepped hStep with
  | launch => exact launch a.net a.log
  | handleLogin email password hLogin => exact h.of_shown rfl h.fullname rfl
  | handleGoogleLogin hLogin => exact h.frame rfl rfl (Or.inl rfl) rfl
  | handleSignUp profileImage email password fullname filename hLogin =>
    unfold App.handleSignUp
    split
    · exact h.frame rfl rfl (Or.inl rfl) rfl
    · split
      · exact h
      · exact h.of_shown rfl h.fullname rfl
  | handleResetPassword email hLogin =>
    unfold App.handleResetPassword
    split
    · exact h
    · exact h.of_shown rfl h.fullname rfl
  | logout signedOut hHome =>
    unfold App.logout
    split
    · refine h.frame rfl rfl (Or.inr ?_) rfl
      simp [front, presentLoginController, present, hHome]
    · exact h
  | handleEditProfile hHome =>
    refine ⟨h.intact, forall_mem_concat h.fullname (by simp [EditProfileViewController.new]), ?_⟩
    intro hAwaits
    have hFront : a.handleEditProfile.front = some a.edits.length := by
      simp [front, App.handleEditProfile, present, call, hHome]
    have hEdits : a.handleEditProfile.edits = a.edits ++ [.new] := rfl
    rw [awaitsURL, hFront, hEdits, Option.bind_some, List.getElem?_concat_length] at hAwaits
    exact absurd hAwaits (by decide)
  | controllerWantsToDismiss hOnboarding => exact h.frame rfl rfl (Or.inr rfl) rfl
  | handleCancel s hEdit => exact h.frame rfl rfl (dismissEdit_front s) rfl
  | handleUpdateUserFullname s text hEdit =>
    have hAwaits : ∀ c : EditProfileViewController,
        (c.handleUpdateUserFullname text).awaitsURL = true → c.awaitsURL = true := fun _ hc => hc
    exact ⟨h.intact, forall_mem_modify h.fullname fun _ _ _ => rfl,
      fun hEdited => h.cover (updateEdit_awaitsURL hAwaits hEdited)⟩
  | handleChangeProfilePhoto s hEdit =>
    refine h.frame rfl rfl (Or.inl ?_) rfl
    rw [front, front, hEdit]
  | imagePickerController s image filename hPicker =>
    unfold App.imagePickerController
    split
    · exact h
    · exact h.of_shown rfl (forall_mem_modify h.fullname fun c hc => hc) rfl
  | imagePickerControllerDidCancel s hPicker => exact h.frame rfl rfl (dismissEdit_front s) rfl
  | handleDone s c hEdit hScreen hEnabled hHud => exact h.handleDone hEdit hScreen hHud
  | perform i outcome call backend step hTask hAnswered => exact h.frame rfl rfl (Or.inl rfl) rfl
  | deliver i call step hTask =>
    rw [KeepsCover, hTask] at hCover
    exact h.deliver (hTraps _ (List.mem_of_getElem? hTask)) hCover

end Covered

end App

end AggroApp
