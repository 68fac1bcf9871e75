import AggroApp.Screens.OwnProfile

/-!
# AggroApp — the shared loader

One static `hud` serves all screens, without a count of those that need it.
Five operations show it: a login, a sign-up, a password reset, a picked picture,
and `configureProfileImage`, which begins and ends in one go. An operation that
ends either hides the loader, whoever else is at work, or returns at a guard and
leaves it as it is.

* `abandonedLoader_not_truthful` — a sign-up that stops at a missing URL leaves
  the loader up for good; a home fetch hides it from under an upload.
* `loader_truthful_iff`          — the loader is displayed exactly while work is
  going on if and only if every end that hides it is the last one, and every end
  that leaves it displayed is not.
-/

namespace AggroApp

open Async

variable {parses : URLParser} {a a' : App}

-- ---------------------------------------------------------------------------
-- Work going on
-- ---------------------------------------------------------------------------

/-- The handler that holds the closure has shown the loader. -/
def Completion.loads : Completion → Bool
  | .handleLogin | .handleSignUp | .handleResetPassword => true
  | _ => false

/-- An operation with this completion was started under the loader. -/
def Owner.loads : Owner Completion UserCompletion ImageCompletion → Bool
  | .outcome completion => completion.loads
  | .value _ => false
  | .url _ => true

def Call.loads (call : AppCall) : Bool := call.owner.loads

/-- An operation that was started under the loader and has not yet ended. -/
def Task.loads : AppTask → Bool
  | .waiting call => call.loads
  | .answered call _ => call.loads
  | .ended => false

/-- One of the operations that show the loader is going on. -/
def App.busy (a : App) : Bool := a.net.tasks.any Task.loads

/-- The same without task `i`. -/
def App.othersBusy (a : App) (i : ℕ) : Bool := (a.net.tasks.set i .ended).any Task.loads

/-- The loader is displayed if and only if such an operation is going on. -/
def App.LoaderTruthful (a : App) : Prop := a.hud = true ↔ a.busy = true

-- ---------------------------------------------------------------------------
-- Ends that keep the loader truthful
-- ---------------------------------------------------------------------------

/-- What the callback does to the loader: an assignment of the home screen's user
shows it, and hides it again when the picture URL parses. -/
def App.setsLoader (parses : URLParser) (a : App) : AppStep → Option Bool
  | .completed .handleLogin _ | .completed .handleSignUp _ | .completed .handleResetPassword _ =>
    some false
  | .completed .controllerWantsToDismiss _ => a.user.map fun user => !parses user.profileImageUrl
  | .completed (.updateUserData _ user) _ => some !parses user.profileImageUrl
  | .fetched .home user => some !parses user.profileImageUrl
  | .uploaded _ _ => some false
  | _ => none

/-- The chain goes on. -/
def Step.waits : AppStep → Bool
  | .wait _ => true
  | _ => false

/-- The delivery of `step` for task `i` hides the loader only as the last one at
work, and leaves it displayed only while others are. -/
def App.EndsTruthfully (parses : URLParser) (a : App) (i : ℕ) (call : AppCall)
    (step : AppStep) : Prop :=
  match a.setsLoader parses step with
  | some displayed => displayed = a.othersBusy i
  | none => call.loads = true → step.waits = false → a.othersBusy i = true

/-- The event keeps the loader truthful: a callback as above; a pick that cannot
start its upload only while others are at work; a save that hands a picture to
the home screen as an assignment of the user there. -/
def App.KeepsLoader (parses : URLParser) (a : App) : App.Event → Prop
  | .imagePickerController (some image) _ =>
    (image.encodable = true ∧ a.net.backend.currentUser.isSome = true) ∨ a.busy = true
  | .handleDone =>
    match a.editing with
    | some (_, c) => c.user.isSome = true → c.imageChanged = true →
        ∀ url ∈ c.viewModel.profileImageUrl, (!parses url) = a.busy
    | none => True
  | .deliver i =>
    match a.net.tasks[i]? with
    | some (.answered call step) => a.EndsTruthfully parses i call step
    | _ => True
  | _ => True

-- ---------------------------------------------------------------------------
-- Too long, and too short
-- ---------------------------------------------------------------------------

/-- A sign-up whose upload fails gets no URL and never reports back. -/
def abandonedSignUp : List App.Event :=
  [.handleSignUp (some ⟨"pixels", true⟩) "cid@mail" "secret" "Cid" "name",
   .perform 0 (.failure ⟨"offline"⟩), .deliver 0, .perform 0 (.failure ⟨"offline"⟩), .deliver 0]

/-- A picked picture is being uploaded when the home screen's fetch arrives. -/
def overtakenUpload : List App.Event :=
  [.handleEditProfile, .perform 1 .success, .deliver 1, .handleChangeProfilePhoto,
   .imagePickerController (some ⟨"pixels", true⟩) "name", .perform 0 .success, .deliver 0]

theorem abandonedLoader_not_truthful :
    ¬ Always (App.step fun _ => true) App.LoaderTruthful
        (App.start { twoAccounts with currentUser := none }) abandonedSignUp ∧
    ¬ Always (App.step fun _ => true) App.LoaderTruthful (App.start twoAccounts)
        overtakenUpload := by
  constructor
  · intro h
    exact absurd ((h.last rfl).mp rfl) (by decide)
  · intro h
    exact absurd ((h.last rfl).mpr rfl) (by decide)

-- ---------------------------------------------------------------------------
-- Operations and the loader
-- ---------------------------------------------------------------------------

/-- The answer of a call stays with the operation of the call. -/
def Task.Coherent : AppTask → Prop
  | .answered call step => ∀ owner ∈ step.owner, owner = call.owner
  | _ => True

theorem Task.ofStep_coherent (step : AppStep) : (Task.ofStep step).Coherent := by
  cases step <;> trivial

def App.Coherent (a : App) : Prop := ∀ task ∈ a.net.tasks, task.Coherent

theorem App.Coherent.step {e : Event} (h : a.Coherent) (hStep : a.step parses e = some a') :
    a'.Coherent := by
  refine App.step_tasks ?_ ?_ ?_ h hStep
  · exact fun session op => Task.ofStep_coherent _
  · exact fun _ _ _ _ _ hAnswered _ => hAnswered.owner
  · exact fun _ step _ => Task.ofStep_coherent step

namespace App

theorem call_busy (op : Operation Completion UserCompletion ImageCompletion) :
    (a.call op).busy = (a.busy || (Task.ofStep (op.start a.net.backend.currentUser)).loads) := by
  show (a.net.tasks ++ [_]).any Task.loads = _
  rw [List.any_append, List.any_cons, List.any_nil, Bool.or_false]
  rfl

theorem busy_congr (h : a'.net = a.net) : a'.busy = a.busy := by rw [busy, h]; rfl

theorem fetchUserWithFirestore_busy : a.fetchUserWithFirestore.busy = a.busy := by
  rw [fetchUserWithFirestore, call_busy]
  cases a.net.backend.currentUser <;> exact Bool.or_false _

theorem authenticationComplete_busy : a.authenticationComplete.busy = a.busy := by
  rw [authenticationComplete, fetchUserWithFirestore_busy]
  rfl

theorem finishAuthentication_busy (error : Option Error) :
    (a.finishAuthentication error).busy = a.busy := by
  cases error with
  | some error => rfl
  | none => exact authenticationComplete_busy

theorem wantsToUpdate_busy (s : ℕ) (user : User) :
    (a.wantsToUpdate parses s user).busy = a.busy := by
  rw [wantsToUpdate_eq, busy_congr (setUser_net user)]
  rfl

/-- What a callback starts is not started under the loader. -/
theorem take_busy (step : AppStep) : (a.take parses step).busy = a.busy := by
  cases step with
  | completed completion error =>
    cases completion with
    | handleLogin => exact finishAuthentication_busy error
    | handleSignUp => exact finishAuthentication_busy error
    | handleGoogleLogin => exact authenticationComplete_busy
    | handleResetPassword => cases error <;> rfl
    | controllerWantsToDismiss =>
      rw [take, complete]
      cases a.user with
      | none => rfl
      | some user => exact busy_congr (setUser_net _)
    | updateUserData s user => exact wantsToUpdate_busy s user
  | fetched comletion user =>
    cases comletion with
    | home => exact busy_congr (setUser_net user)
    | edit s => rfl
  | _ => rfl

theorem wantsToUpdate_hud (s : ℕ) (user : User) :
    (a.wantsToUpdate parses s user).hud = !parses user.profileImageUrl := by
  rw [wantsToUpdate_eq, setUser_hud]

theorem take_hud (step : AppStep) :
    (a.take parses step).hud = (a.setsLoader parses step).getD a.hud := by
  cases step with
  | completed completion error =>
    cases completion with
    | handleLogin => cases error <;> rfl
    | handleSignUp => cases error <;> rfl
    | handleGoogleLogin => rfl
    | handleResetPassword => cases error <;> rfl
    | controllerWantsToDismiss =>
      rw [take, complete, setsLoader]
      cases a.user with
      | none => rfl
      | some user => exact setUser_hud _
    | updateUserData s user => exact wantsToUpdate_hud s user
  | fetched comletion user =>
    cases comletion with
    | home => exact setUser_hud user
    | edit s => rfl
  | _ => rfl

-- ---------------------------------------------------------------------------
-- Saving
-- ---------------------------------------------------------------------------

theorem save_busy (s : ℕ) (effect : EditProfileViewController.Effect) :
    (a.save parses s effect).busy = a.busy := by
  cases effect with
  | wantsToUpdate user => exact wantsToUpdate_busy s user
  | updateUserData user =>
    rw [save, call_busy]
    cases a.net.backend.currentUser <;> exact Bool.or_false _
  | trap what => rfl

theorem handleDone_busy (s : ℕ) (c : EditProfileViewController) :
    (a.handleDone parses s c).busy = a.busy :=
  handleDone_keeps (I := fun b => b.busy = a.busy) rfl fun _ hb effect _ =>
    (save_busy s effect).trans hb

/-- Writes and traps leave the loader alone. -/
theorem foldl_save_hud {effects : List EditProfileViewController.Effect} (s : ℕ)
    (h : ∀ user, .wantsToUpdate user ∉ effects) :
    (effects.foldl (save parses s) a).hud = a.hud := by
  induction effects generalizing a with
  | nil => rfl
  | cons effect effects ih =>
    have hEffect : (a.save parses s effect).hud = a.hud := by
      cases effect with
      | wantsToUpdate user => exact absurd List.mem_cons_self (h user)
      | _ => rfl
    rw [List.foldl_cons, ih fun user hMem => h user (List.mem_cons_of_mem effect hMem), hEffect]

/-- The loader after a save: what the notification makes of it, if there is one. -/
theorem handleDone_hud (s : ℕ) (c : EditProfileViewController) :
    (a.handleDone parses s c).hud =
      if c.user.isSome && c.imageChanged then
        (c.viewModel.profileImageUrl.map fun url => !parses url).getD a.hud
      else
        a.hud := by
  have hRest := fun user => c.saveFullname_not_notifies user
  unfold handleDone EditProfileViewController.updateUserData
  cases c.user with
  | none => rfl
  | some user =>
    cases hChanged : c.imageChanged with
    | false => exact foldl_save_hud s (hRest user)
    | true =>
      cases c.viewModel.profileImageUrl with
      | none => rfl
      | some url =>
        show (List.foldl _ (a.wantsToUpdate parses s _) _).hud = _
        rw [foldl_save_hud s (hRest _), wantsToUpdate_hud]
        rfl

-- ---------------------------------------------------------------------------
-- One step
-- ---------------------------------------------------------------------------

/-- A delivery takes the task out of those at work, unless its chain goes on. -/
theorem receive_busy {i : ℕ} {call : AppCall} {step : AppStep} (hCoherent : a.Coherent)
    (hTask : a.net.tasks[i]? = some (.answered call step)) :
    (a.receive i step).busy = if step.waits then a.busy else a.othersBusy i := by
  cases step with
  | wait next =>
    have hOwner : next.owner = call.owner := hCoherent _ (List.mem_of_getElem? hTask) _ rfl
    exact any_set_of_eq hTask (show next.owner.loads = call.owner.loads by rw [hOwner])
  | _ => rfl

/-- A callback that sets the loader is the last of its chain. -/
theorem waits_of_setsLoader {step : AppStep} {displayed : Bool}
    (h : a.setsLoader parses step = some displayed) : step.waits = false := by
  cases step with
  | wait call => exact absurd h (by simp [setsLoader])
  | _ => rfl

theorem deliver_exact {i : ℕ} {call : AppCall} {step : AppStep} (hCoherent : a.Coherent)
    (hHud : a.LoaderTruthful) (hTask : a.net.tasks[i]? = some (.answered call step)) :
    ((a.receive i step).take parses step).LoaderTruthful ↔
      a.EndsTruthfully parses i call step := by
  have hSets : (a.receive i step).setsLoader parses step = a.setsLoader parses step := rfl
  have hSame : a.hud = a.busy := Bool.eq_iff_iff.mpr hHud
  have hSplit : a.busy = (a.othersBusy i || call.loads) := any_eq_set_or hTask rfl
  rw [LoaderTruthful, ← Bool.eq_iff_iff, take_hud, take_busy, hSets, receive_busy hCoherent hTask,
    EndsTruthfully]
  cases hSetsTo : a.setsLoader parses step with
  | some displayed =>
    rw [waits_of_setsLoader hSetsTo]
    rfl
  | none =>
    show (a.hud = _) ↔ _
    rw [hSame]
    cases hWaits : step.waits with
    | true => simp
    | false =>
      rw [hSplit]
      cases call.loads <;> cases a.othersBusy i <;> simp

/-- The pick starts an upload if it has a JPEG to upload and a session. -/
theorem imagePickerController_exact (s : ℕ) (image : UIImage) (filename : Filename) :
    (a.imagePickerController s (some image) filename).LoaderTruthful ↔
      (image.encodable = true ∧ a.net.backend.currentUser.isSome = true) ∨ a.busy = true := by
  have hHud : (a.imagePickerController s (some image) filename).hud = true := rfl
  have hBusy : (a.imagePickerController s (some image) filename).busy = (a.busy ||
      (Task.ofStep ((Operation.updateProfileImage image filename
        (.imagePickerController s)).start a.net.backend.currentUser) : AppTask).loads) :=
    call_busy _
  rw [LoaderTruthful, hHud, hBusy, Operation.start, Service.updateProfileImage, UIImage.jpegData]
  cases image.encodable <;> cases a.net.backend.currentUser <;> cases a.busy <;>
    simp [Task.ofStep, Task.loads, Call.loads, Call.owner, Owner.loads]

theorem handleDone_exact (hHud : a.LoaderTruthful) (s : ℕ) (c : EditProfileViewController) :
    (a.handleDone parses s c).LoaderTruthful ↔ (c.user.isSome = true → c.imageChanged = true →
      ∀ url ∈ c.viewModel.profileImageUrl, (!parses url) = a.busy) := by
  have hSame : a.hud = a.busy := Bool.eq_iff_iff.mpr hHud
  rw [LoaderTruthful, ← Bool.eq_iff_iff, handleDone_hud, handleDone_busy, hSame]
  cases c.user <;> cases c.imageChanged <;> cases c.viewModel.profileImageUrl <;> simp

theorem launch_truthful (net : AppNet) (log : List Notice) : (launch net log).LoaderTruthful := by
  have hLoaded : (loaded net.restart log).LoaderTruthful := by
    simp [LoaderTruthful, loaded, busy, Net.restart]
  unfold launch authenticateUSer
  split
  · exact hLoaded
  · rw [LoaderTruthful, fetchUserWithFirestore_busy]
    exact hLoaded

/-- An operation that is started together with the loader. -/
theorem shown_truthful {op : Operation Completion UserCompletion ImageCompletion}
    (h : (Task.ofStep (op.start a.net.backend.currentUser)).loads = true) :
    ((a.showLoader true).call op).LoaderTruthful := by
  rw [LoaderTruthful, call_busy]
  simp [call, showLoader, h]

/-- An operation that is started without the loader. -/
theorem call_truthful (hHud : a.LoaderTruthful)
    {op : Operation Completion UserCompletion ImageCompletion}
    (h : ∀ session, (Task.ofStep (op.start session)).loads = false) :
    (a.call op).LoaderTruthful := by
  rw [LoaderTruthful, call_busy, h, Bool.or_false]
  exact hHud

/-- Each step keeps the loader truthful exactly when it is one that does. -/
theorem step_exact {e : Event} (hCoherent : a.Coherent) (hHud : a.LoaderTruthful)
    (hStep : a.step parses e = some a') : a'.LoaderTruthful ↔ a.KeepsLoader parses e := by
  have hTrue : ∀ {b : App}, b.LoaderTruthful → (b.LoaderTruthful ↔ True) := iff_true_intro
  cases step_stepped hStep with
  | launch => exact hTrue (launch_truthful a.net a.log)
  | handleLogin email password hLogin => exact hTrue (shown_truthful rfl)
  | handleGoogleLogin hLogin => exact hTrue (call_truthful hHud fun _ => rfl)
  | handleSignUp profileImage email password fullname filename hLogin =>
    refine hTrue ?_
    unfold handleSignUp
    split
    · exact hHud
    · split
      · exact hHud
      · rename_i image data hData
        exact shown_truthful (by rw [Operation.start, hData]; rfl)
  | handleResetPassword email hLogin =>
    refine hTrue ?_
    unfold handleResetPassword
    split
    · exact hHud
    · exact shown_truthful rfl
  | logout signedOut hHome =>
    refine hTrue ?_
    unfold logout
    split <;> exact hHud
  | handleEditProfile hHome =>
    have hOpened : (({ a with edits := a.edits ++ [.new] } : App).present
        (.edit a.edits.length)).LoaderTruthful := hHud
    exact hTrue (call_truthful hOpened fun session => by cases session <;> rfl)
  | controllerWantsToDismiss hOnboarding =>
    have hDismissed : a.dismiss.LoaderTruthful := hHud
    exact hTrue (call_truthful hDismissed fun session => by cases session <;> rfl)
  | imagePickerController s image filename hPicker =>
    cases image with
    | none => exact hTrue hHud
    | some image => exact imagePickerController_exact s image filename
  | handleDone s c hEdit hScreen hEnabled hLoader =>
    have hEditing : a.editing = some (s, c) := by simp [editing, hEdit, hScreen]
    rw [KeepsLoader, hEditing]
    exact handleDone_exact hHud s c
  | perform i outcome call backend step hTask hAnswered =>
    have hBusy : (a.answer i backend call step).busy = a.busy := any_set_of_eq hTask rfl
    refine hTrue ?_
    rw [LoaderTruthful, hBusy]
    exact hHud
  | deliver i call step hTask =>
    rw [KeepsLoader, hTask]
    exact deliver_exact hCoherent hHud hTask
  | _ => exact hTrue hHud

end App

/--
**The loader tells the truth exactly when its users end in order.** In every
run of the app, from any backend, the loader is displayed in each state if and
only if work is going on there, exactly when every event of the run keeps it so:
an end that hides the loader is the last one, an end that leaves it displayed is
not, and the user of the home screen is assigned accordingly.
-/
theorem loader_truthful_iff (parses : URLParser) (backend : Backend) (es : List App.Event) :
    Always (App.step parses) App.LoaderTruthful (App.start backend) es ↔
      Along (App.step parses) (App.KeepsLoader parses) (App.start backend) es :=
  always_iff_along (fun _ _ _ hCoherent hStep => hCoherent.step hStep)
    (fun _ _ _ hCoherent hHud hStep => App.step_exact hCoherent hHud hStep)
    (App.start_tasks fun _ _ => Task.ofStep_coherent _) (App.launch_truthful _ _)

end AggroApp
