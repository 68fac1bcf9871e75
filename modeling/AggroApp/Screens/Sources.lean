import Mathlib.Data.Set.Basic
import AggroApp.Model.App

/-!
# AggroApp — where the texts of a profile come from

A stored profile is put together from texts that arrive at different places: the
forms, Google's account, and the URLs of Storage. Between their arrival and the
document they are captured by closures, kept by edit screens and handed from
screen to screen, across logouts and other accounts. `Sources` says which texts
may arrive; whatever the order of events, no other text is ever stored or shown.

## Results

* `profiles_have_sources` — with the texts that have arrived during the run: every
  stored profile and every shown one consists of these.
* `pictures_are_served`   — with the pictures that Storage serves: no profile
  refers to a picture that is not there.
-/

namespace AggroApp

open Async

variable {κ υ ι : Type}
variable {parses : URLParser} {a a' : App}

-- ---------------------------------------------------------------------------
-- Sources
-- ---------------------------------------------------------------------------

/-- The e-mails, names and picture URLs that may arrive. -/
structure Sources where
  emails : Set String
  names : Set String
  pictures : Set String

namespace Sources

variable {S S' : Sources}

instance : LE Sources where
  le S S' := S.emails ⊆ S'.emails ∧ S.names ⊆ S'.names ∧ S.pictures ⊆ S'.pictures

/-- The user consists of texts that may arrive. -/
structure Has (S : Sources) (user : User) : Prop where
  email : user.email ∈ S.emails
  name : user.fullname ∈ S.names
  picture : user.profileImageUrl ∈ S.pictures

/-- What Auth knows about the account may arrive. -/
structure Grants (S : Sources) (user : AuthUser) : Prop where
  email : ∀ email ∈ user.email, email ∈ S.emails
  name : ∀ fullname ∈ user.displayName, fullname ∈ S.names
  picture : ∀ profileImageUrl ∈ user.photoURL, profileImageUrl ∈ S.pictures

/-- The literals of the updates. -/
inductive Update (S : Sources) : Fields → Prop
  | hasSeenOnboarding : S.Update [("hasSeenOnboarding", .bool true)]
  | fullname (s : String) (hName : s ∈ S.names) : S.Update [("fullname", .string s)]
  | profileImageUrl (s : String) (hPicture : s ∈ S.pictures) :
    S.Update [("profileImageUrl", .string s)]

theorem Has.mono {user : User} (h : S.Has user) (hLe : S ≤ S') : S'.Has user :=
  ⟨hLe.1 h.email, hLe.2.1 h.name, hLe.2.2 h.picture⟩

theorem Grants.mono {user : AuthUser} (h : S.Grants user) (hLe : S ≤ S') : S'.Grants user :=
  ⟨fun _ hMem => hLe.1 (h.email _ hMem), fun _ hMem => hLe.2.1 (h.name _ hMem),
    fun _ hMem => hLe.2.2 (h.picture _ hMem)⟩

theorem Update.mono {data : Fields} (h : S.Update data) (hLe : S ≤ S') : S'.Update data := by
  cases h with
  | hasSeenOnboarding => exact .hasSeenOnboarding
  | fullname s hName => exact .fullname s (hLe.2.1 hName)
  | profileImageUrl s hPicture => exact .profileImageUrl s (hLe.2.2 hPicture)

/-- An update leaves a profile of such texts, of the same account. -/
theorem Update.merge {data : Fields} (h : S.Update data) {doc : Document}
    (hDoc : S.Has (User.ofDictionary doc)) :
    S.Has (User.ofDictionary (doc.merge data)) ∧
      (User.ofDictionary (doc.merge data)).uid = (User.ofDictionary doc).uid := by
  cases h with
  | hasSeenOnboarding =>
    rw [ofDictionary_merge_hasSeenOnboarding]
    exact ⟨⟨hDoc.email, hDoc.name, hDoc.picture⟩, rfl⟩
  | fullname s hName =>
    rw [ofDictionary_merge_fullname]
    exact ⟨⟨hDoc.email, hName, hDoc.picture⟩, rfl⟩
  | profileImageUrl s hPicture =>
    rw [ofDictionary_merge_profileImageUrl]
    exact ⟨⟨hDoc.email, hDoc.name, hPicture⟩, rfl⟩

end Sources

-- ---------------------------------------------------------------------------
-- On the way to the store
-- ---------------------------------------------------------------------------

/-- The texts that the call carries. The app reads profiles from Firestore only. -/
def Call.Sourced (S : Sources) : Call κ υ ι → Prop
  | .auth _ (.registerUserWithFirestore email fullname profileImageUrl _) =>
    email ∈ S.emails ∧ fullname ∈ S.names ∧ profileImageUrl ∈ S.pictures
  | .getDocument _ (.signInWitnGoogleFirestore user _) => S.Grants user
  | .setData uid values _ =>
    ∃ email ∈ S.emails, ∃ fullname ∈ S.names, ∃ profileImageUrl ∈ S.pictures,
      values = profileValues email fullname profileImageUrl uid
  | .updateData _ data (.direct _) => S.Update data
  | .updateData _ data (.updateProfileImage profileImageUrl _) =>
    S.Update data ∧ profileImageUrl ∈ S.pictures
  | .putData _ _ (.handleSignUp email _ fullname _) => email ∈ S.emails ∧ fullname ∈ S.names
  | .downloadURL _ (.handleSignUp email _ fullname _) => email ∈ S.emails ∧ fullname ∈ S.names
  | .observeSingleEvent _ (.fetchUser _) => False
  | _ => True

def Step.Sourced (S : Sources) : Step κ υ ι → Prop
  | .wait call => call.Sourced S
  | .fetched _ user => S.Has user
  | .uploaded _ profileImageUrl => profileImageUrl ∈ S.pictures
  | _ => True

/-- The texts that an outcome brings: those of an account, or Storage's URL. -/
def Outcome.Sourced (S : Sources) : Outcome → Prop
  | .signedIn user => S.Grants user
  | .url profileImageUrl => profileImageUrl ∈ S.pictures
  | _ => True

/-- Every document is a profile of its own account, made of such texts, and so are
the URLs of Storage. -/
structure Backend.Sourced (S : Sources) (b : Backend) : Prop where
  documents : ∀ uid doc, b.users uid = some doc →
    S.Has (User.ofDictionary doc) ∧ (User.ofDictionary doc).uid = uid
  images : ∀ filename image, b.images filename = some image → image.url ∈ S.pictures

theorem Call.Sourced.mono {S S' : Sources} {call : Call κ υ ι} (h : call.Sourced S)
    (hLe : S ≤ S') : call.Sourced S' := by
  cases call with
  | auth request callback =>
    cases callback with
    | registerUserWithFirestore email fullname url completion =>
      exact ⟨hLe.1 h.1, hLe.2.1 h.2.1, hLe.2.2 h.2.2⟩
    | _ => trivial
  | getDocument uid callback =>
    cases callback with
    | signInWitnGoogleFirestore user completion => exact Sources.Grants.mono h hLe
    | fetchUserWithFirestore comletion => trivial
  | setData uid values completion =>
    obtain ⟨email, hEmail, fullname, hName, url, hPicture, rfl⟩ := h
    exact ⟨email, hLe.1 hEmail, fullname, hLe.2.1 hName, url, hLe.2.2 hPicture, rfl⟩
  | updateData uid data callback =>
    cases callback with
    | direct completion => exact Sources.Update.mono h hLe
    | updateProfileImage url completion => exact ⟨h.1.mono hLe, hLe.2.2 h.2⟩
  | putData filename data callback =>
    cases callback with
    | updateProfileImage uid completion => trivial
    | handleSignUp email password fullname completion => exact ⟨hLe.1 h.1, hLe.2.1 h.2⟩
  | downloadURL filename callback =>
    cases callback with
    | updateProfileImage uid completion => trivial
    | handleSignUp email password fullname completion => exact ⟨hLe.1 h.1, hLe.2.1 h.2⟩
  | observeSingleEvent uid callback =>
    cases callback with
    | signInWithGoogle user completion => trivial
    | fetchUser comletion => exact h.elim
  | _ => trivial

theorem Step.Sourced.mono {S S' : Sources} {step : Step κ υ ι} (h : step.Sourced S)
    (hLe : S ≤ S') : step.Sourced S' := by
  cases step with
  | wait call => exact Call.Sourced.mono h hLe
  | fetched comletion user => exact Sources.Has.mono h hLe
  | uploaded completion url => exact hLe.2.2 h
  | _ => trivial

theorem Backend.Sourced.mono {S S' : Sources} {b : Backend} (h : b.Sourced S) (hLe : S ≤ S') :
    b.Sourced S' where
  documents := fun uid doc hDoc =>
    ⟨(h.documents uid doc hDoc).1.mono hLe, (h.documents uid doc hDoc).2⟩
  images := fun filename image hImage => hLe.2.2 (h.images filename image hImage)

/-- Writing a profile of such texts. -/
theorem Backend.Sourced.write {S : Sources} {b b' : Backend} (h : b.Sourced S) (uid : Uid)
    {doc : Document} (hUsers : b'.users = Function.update b.users uid (some doc))
    (hImages : b'.images = b.images) (hDoc : S.Has (User.ofDictionary doc))
    (hUid : (User.ofDictionary doc).uid = uid) : b'.Sourced S where
  documents := by
    intro uid' doc' hDoc'
    rw [hUsers, Function.update_apply] at hDoc'
    split_ifs at hDoc' with hSame
    · rw [Option.some.injEq] at hDoc'
      exact hDoc' ▸ hSame ▸ ⟨hDoc, hUid⟩
    · exact h.documents uid' doc' hDoc'
  images := fun filename image hImage => h.images filename image (hImages ▸ hImage)

theorem Backend.Sourced.congr {S : Sources} {b b' : Backend} (h : b.Sourced S)
    (hUsers : b'.users = b.users) (hImages : b'.images = b.images) : b'.Sourced S :=
  ⟨fun uid doc hDoc => h.documents uid doc (hUsers ▸ hDoc),
    fun filename image hImage => h.images filename image (hImages ▸ hImage)⟩

theorem AuthCallback.run_sourced {S : Sources} {request : AuthRequest} {callback : AuthCallback κ}
    (h : (Call.auth request callback : Call κ υ ι).Sourced S) (error : Option Error)
    (result : Option AuthUser) (hUser : ∀ user ∈ result, S.Grants user) :
    (callback.run result error : Step κ υ ι).Sourced S := by
  cases callback <;> cases error <;> cases result <;> try trivial
  case registerUserWithFirestore.none.some email fullname url completion user =>
    exact ⟨email, h.1, fullname, h.2.1, url, h.2.2, rfl⟩
  case signInWitnGoogleFirestore.none.some completion user => exact hUser user rfl

/-- A call that carries such texts brings such texts. -/
theorem Answered.sourced {S : Sources} {b b' : Backend} {call : Call κ υ ι} {outcome : Outcome}
    {step : Step κ υ ι} (h : Answered b call outcome b' step) (hBackend : b.Sourced S)
    (hCall : call.Sourced S) (hOutcome : outcome.Sourced S) :
    b'.Sourced S ∧ step.Sourced S := by
  cases h with
  | authFailed request callback error =>
    exact ⟨hBackend, AuthCallback.run_sourced hCall _ _ (by simp)⟩
  | authenticated request callback user b' hAuth =>
    obtain ⟨-, hUsers, hImages, -⟩ := Backend.authenticate_some hAuth
    exact ⟨hBackend.congr hUsers hImages,
      AuthCallback.run_sourced hCall _ _ fun _ hMem => Option.mem_some_iff.mp hMem ▸ hOutcome⟩
  | readFailed uid callback error => exact ⟨hBackend, by cases callback <;> trivial⟩
  | read uid callback =>
    refine ⟨hBackend, ?_⟩
    cases callback with
    | signInWitnGoogleFirestore user completion =>
      rcases b.users uid with _ | doc
      · have hUser : S.Grants user := hCall
        unfold DocumentCallback.run
        dsimp only
        split
        · trivial
        · rename_i email hEmail
          split
          · trivial
          · rename_i fullname hName
            split
            · trivial
            · rename_i url hPicture
              exact ⟨email, hUser.email email hEmail, fullname, hUser.name fullname hName, url,
                hUser.picture url hPicture, rfl⟩
      · trivial
    | fetchUserWithFirestore comletion =>
      cases hDoc : b.users uid with
      | none => trivial
      | some doc => exact (hBackend.documents uid doc hDoc).1
  | set uid values completion =>
    obtain ⟨email, hEmail, fullname, hName, url, hPicture, rfl⟩ := hCall
    refine ⟨hBackend.write uid rfl rfl ?_ ?_, trivial⟩
    · rw [ofDictionary_profileValues]
      exact ⟨hEmail, hName, hPicture⟩
    · rw [ofDictionary_profileValues]
  | updateFailed uid data callback error =>
    cases callback with
    | direct completion => exact ⟨hBackend, trivial⟩
    | updateProfileImage url completion => exact ⟨hBackend, hCall.2⟩
  | updated uid data callback doc hDoc =>
    obtain ⟨hHas, hUid⟩ := hBackend.documents uid doc hDoc
    have hUpdate : S.Update data := by
      cases callback with
      | direct completion => exact hCall
      | updateProfileImage url completion => exact hCall.1
    obtain ⟨hMerged, hSame⟩ := hUpdate.merge hHas
    refine ⟨hBackend.write uid rfl rfl hMerged (hSame.trans hUid), ?_⟩
    cases callback with
    | direct completion => trivial
    | updateProfileImage url completion => exact hCall.2
  | storeFailed filename data callback error =>
    exact ⟨hBackend, by cases callback with
      | updateProfileImage uid completion => trivial
      | handleSignUp email password fullname completion => exact hCall⟩
  | stored filename data callback url =>
    refine ⟨⟨hBackend.documents, ?_⟩, ?_⟩
    · intro filename' image hImage
      have hStored : Function.update b.images filename (some ⟨data, url⟩) filename' =
        some image := hImage
      rw [Function.update_apply] at hStored
      split_ifs at hStored with hSame
      · rw [Option.some.injEq] at hStored
        exact hStored ▸ hOutcome
      · exact hBackend.images filename' image hStored
    · cases callback with
      | updateProfileImage uid completion => trivial
      | handleSignUp email password fullname completion => exact hCall
  | locateFailed filename callback error => exact ⟨hBackend, by cases callback <;> trivial⟩
  | located filename callback image hImage =>
    have hPicture : image.url ∈ S.pictures := hBackend.images filename image hImage
    cases callback with
    | updateProfileImage uid completion =>
      exact ⟨hBackend, .profileImageUrl image.url hPicture, hPicture⟩
    | handleSignUp email password fullname completion =>
      exact ⟨hBackend, hCall.1, hCall.2, hPicture⟩
  | observed uid callback =>
    cases callback with
    | signInWithGoogle user completion =>
      generalize hStep : EventCallback.run _ _ _ = step
      rcases EventCallback.run_signIn user completion uid _ hStep with
        rfl | rfl | ⟨email, fullname, rfl⟩ <;> exact ⟨hBackend, trivial⟩
    | fetchUser comletion => exact hCall.elim
  | childrenUpdated ref values completion => exact ⟨hBackend.congr rfl rfl, trivial⟩
  | valueSet uid key value completion => exact ⟨hBackend.congr rfl rfl, trivial⟩
  | _ => exact ⟨hBackend, trivial⟩

-- ---------------------------------------------------------------------------
-- On the screens
-- ---------------------------------------------------------------------------

/-- The user that the closure has captured. -/
def Completion.Sourced (S : Sources) : Completion → Prop
  | .updateUserData _ user => S.Has user
  | _ => True

def Owner.Sourced (S : Sources) : Owner Completion UserCompletion ImageCompletion → Prop
  | .outcome completion => completion.Sourced S
  | _ => True

def Task.Sourced (S : Sources) : AppTask → Prop
  | .waiting call => call.Sourced S ∧ call.owner.Sourced S
  | .answered _ step => step.Sourced S ∧ ∀ owner ∈ step.owner, owner.Sourced S
  | .ended => True

structure EditProfileViewController.Sourced (S : Sources) (c : EditProfileViewController) :
    Prop where
  user : ∀ user ∈ c.user, S.Has user
  name : ∀ fullname ∈ c.viewModel.fullname, fullname ∈ S.names
  picture : ∀ profileImageUrl ∈ c.viewModel.profileImageUrl, profileImageUrl ∈ S.pictures

/-- Nothing but such texts anywhere: in the backends, in the operations in flight,
on the home screen and on the edit screens. -/
structure App.Sourced (S : Sources) (a : App) : Prop where
  backend : a.net.backend.Sourced S
  tasks : ∀ task ∈ a.net.tasks, task.Sourced S
  user : ∀ user ∈ a.user, S.Has user
  edits : ∀ c ∈ a.edits, c.Sourced S

/-- The texts that the event brings. -/
def App.Event.Sourced (S : Sources) : App.Event → Prop
  | .handleSignUp _ email _ fullname _ => email ∈ S.emails ∧ fullname ∈ S.names
  | .handleUpdateUserFullname text => text ∈ S.names
  | .perform _ outcome => outcome.Sourced S
  | _ => True

theorem Owner.Sourced.mono {S S' : Sources}
    {owner : Owner Completion UserCompletion ImageCompletion} (h : owner.Sourced S)
    (hLe : S ≤ S') : owner.Sourced S' := by
  cases owner with
  | outcome completion =>
    cases completion with
    | updateUserData s user => exact Sources.Has.mono h hLe
    | _ => trivial
  | _ => trivial

theorem Task.Sourced.mono {S S' : Sources} {task : AppTask} (h : task.Sourced S)
    (hLe : S ≤ S') : task.Sourced S' := by
  cases task with
  | waiting call => exact ⟨Call.Sourced.mono h.1 hLe, h.2.mono hLe⟩
  | answered call step =>
    exact ⟨Step.Sourced.mono h.1 hLe, fun owner hOwner => (h.2 owner hOwner).mono hLe⟩
  | ended => trivial

theorem Task.sourced_ofStep {S : Sources} {step : AppStep} (h : step.Sourced S)
    (hOwner : ∀ owner ∈ step.owner, owner.Sourced S) : (Task.ofStep step).Sourced S := by
  cases step with
  | wait call => exact ⟨h, hOwner call.owner rfl⟩
  | _ => trivial

namespace EditProfileViewController

variable {S : Sources} {c : EditProfileViewController}

theorem Sourced.mono {S' : Sources} (h : c.Sourced S) (hLe : S ≤ S') : c.Sourced S' :=
  ⟨fun user hUser => (h.user user hUser).mono hLe, fun _ hName => hLe.2.1 (h.name _ hName),
    fun _ hPicture => hLe.2.2 (h.picture _ hPicture)⟩

theorem Sourced.edit (h : c.Sourced S) {text : String} (hText : text ∈ S.names) :
    (c.handleUpdateUserFullname text).Sourced S :=
  ⟨h.user, fun _ hMem => Option.mem_some_iff.mp hMem ▸ hText, h.picture⟩

theorem Sourced.upload (h : c.Sourced S) {url : String} (hUrl : url ∈ S.pictures) :
    (c.imageUploaded url).Sourced S :=
  ⟨h.user, h.name, fun _ hMem => Option.mem_some_iff.mp hMem ▸ hUrl⟩

theorem Sourced.pick (h : c.Sourced S) : c.imagePicked.Sourced S := ⟨h.user, h.name, h.picture⟩

/-- What a save hands out has every property that the fetched user has and that the
edited name and picture keep. -/
theorem updateUserData_keeps {P : User → Prop} (hUser : ∀ user ∈ c.user, P user)
    (hName : ∀ fullname ∈ c.viewModel.fullname, ∀ user, P user → P { user with fullname })
    (hPicture : ∀ profileImageUrl ∈ c.viewModel.profileImageUrl, ∀ user, P user →
      P { user with profileImageUrl }) :
    ∀ effect ∈ c.updateUserData, ∀ user ∈ effect.user, P user := by
  have hTrap : ∀ what, ∀ user ∈ (Effect.trap what).user, P user := by simp [Effect.user]
  have hOne : ∀ effect : Effect, (∀ user ∈ effect.user, P user) →
      ∀ effect' ∈ [effect], ∀ user ∈ effect'.user, P user := by
    intro effect hEffect effect' hMem
    exact List.mem_singleton.mp hMem ▸ hEffect
  have hBoth : ∀ user, P user → ∀ effect ∈ c.saveBoth user, ∀ user' ∈ effect.user, P user' := by
    intro user hP
    unfold saveBoth
    split
    · split
      · exact hOne _ (hTrap _)
      · rename_i url hUrl
        split
        · exact hOne _ (hTrap _)
        · rename_i fullname hFullname
          refine hOne _ fun user' hMem => Option.mem_some_iff.mp hMem ▸ ?_
          exact hName fullname hFullname _ (hPicture url hUrl user hP)
    · simp
  have hFullname : ∀ user, P user → ∀ effect ∈ c.saveFullname user, ∀ user' ∈ effect.user,
      P user' := by
    intro user hP
    unfold saveFullname
    split
    · split
      · exact hOne _ (hTrap _)
      · rename_i fullname hFullname
        have hNamed : P { user with fullname } := hName fullname hFullname user hP
        rw [List.forall_mem_cons]
        exact ⟨fun user' hMem => Option.mem_some_iff.mp hMem ▸ hNamed, hBoth _ hNamed⟩
    · exact hBoth user hP
  unfold updateUserData
  split
  · simp
  · rename_i user hSome
    split
    · split
      · exact hOne _ (hTrap _)
      · rename_i url hUrl
        have hPictured : P { user with profileImageUrl := url } :=
          hPicture url hUrl user (hUser user hSome)
        rw [List.forall_mem_cons]
        exact ⟨fun user' hMem => Option.mem_some_iff.mp hMem ▸ hPictured, hFullname _ hPictured⟩
    · exact hFullname user (hUser user hSome)

theorem Sourced.effects (h : c.Sourced S) :
    ∀ effect ∈ c.updateUserData, ∀ user ∈ effect.user, S.Has user :=
  updateUserData_keeps h.user (fun fullname hMem _ hUser => ⟨hUser.email, h.name fullname hMem,
    hUser.picture⟩) fun url hMem _ hUser => ⟨hUser.email, hUser.name, h.picture url hMem⟩

end EditProfileViewController

-- ---------------------------------------------------------------------------
-- The app
-- ---------------------------------------------------------------------------

namespace App.Sourced

variable {S : Sources}

theorem mono {S' : Sources} (h : a.Sourced S) (hLe : S ≤ S') : a.Sourced S' where
  backend := h.backend.mono hLe
  tasks := fun task hMem => (h.tasks task hMem).mono hLe
  user := fun user hUser => (h.user user hUser).mono hLe
  edits := fun c hMem => (h.edits c hMem).mono hLe

theorem congr (h : a.Sourced S) (hNet : a'.net = a.net) (hUser : a'.user = a.user)
    (hEdits : a'.edits = a.edits) : a'.Sourced S :=
  ⟨hNet ▸ h.backend, hNet ▸ h.tasks, hUser ▸ h.user, hEdits ▸ h.edits⟩

/-- Start an operation that carries such texts. -/
theorem call (h : a.Sourced S) (op : Operation Completion UserCompletion ImageCompletion)
    (hOp : (op.start a.net.backend.currentUser).Sourced S)
    (hOwner : ∀ owner ∈ (op.start a.net.backend.currentUser).owner, owner.Sourced S) :
    (a.call op).Sourced S where
  backend := h.backend
  tasks := forall_mem_concat h.tasks (Task.sourced_ofStep hOp hOwner)
  user := h.user
  edits := h.edits

theorem setUser (h : a.Sourced S) {user : User} (hUser : S.Has user) :
    (a.setUser parses user).Sourced S where
  backend := by
    rw [setUser_net]
    exact h.backend
  tasks := by
    rw [setUser_net]
    exact h.tasks
  user := by
    rw [setUser_user]
    exact fun user' hMem => Option.mem_some_iff.mp hMem ▸ hUser
  edits := by
    rw [setUser_edits]
    exact h.edits

theorem wantsToUpdate (h : a.Sourced S) {user : User} (hUser : S.Has user) (s : ℕ) :
    (a.wantsToUpdate parses s user).Sourced S := by
  have hDismissed : (a.dismissEdit s).Sourced S := h.congr rfl rfl rfl
  rw [wantsToUpdate_eq]
  exact hDismissed.setUser hUser

theorem updateEdit (h : a.Sourced S) {f : EditProfileViewController → EditProfileViewController}
    (hf : ∀ c, c.Sourced S → (f c).Sourced S) (s : ℕ) : (a.updateEdit s f).Sourced S :=
  ⟨h.backend, h.tasks, h.user, forall_mem_modify h.edits hf⟩

theorem fetchUserWithFirestore (h : a.Sourced S) : a.fetchUserWithFirestore.Sourced S := by
  refine h.call _ ?_ ?_ <;> cases a.net.backend.currentUser <;>
    simp [Operation.start, Service.fetchUserWithFirestore, Step.Sourced, Call.Sourced, Step.owner,
      Call.owner, Owner.Sourced]

theorem authenticationComplete (h : a.Sourced S) : a.authenticationComplete.Sourced S := by
  have hDismissed : (({ a with
      log := a.log ++ [.authenticationComplete a.net.backend.currentUser] } : App).dismiss).Sourced
        S := h.congr rfl rfl rfl
  exact hDismissed.fetchUserWithFirestore

theorem finishAuthentication (h : a.Sourced S) (error : Option Error) :
    (a.finishAuthentication error).Sourced S := by
  have hHidden : (a.showLoader false).Sourced S := h.congr rfl rfl rfl
  cases error with
  | some error => exact h.congr rfl rfl rfl
  | none => exact hHidden.authenticationComplete

theorem complete (h : a.Sourced S) (error : Option Error) {completion : Completion}
    (hCompletion : completion.Sourced S) : (a.complete parses error completion).Sourced S := by
  cases completion with
  | handleLogin => exact h.finishAuthentication error
  | handleSignUp => exact h.finishAuthentication error
  | handleGoogleLogin => exact h.authenticationComplete
  | handleResetPassword => cases error <;> exact h.congr rfl rfl rfl
  | controllerWantsToDismiss =>
    cases hUser : a.user with
    | none =>
      rw [complete_unloaded hUser]
      exact h
    | some user =>
      have hHas : S.Has user := h.user user hUser
      rw [complete_dismissed hUser]
      exact h.setUser ⟨hHas.email, hHas.name, hHas.picture⟩
  | updateUserData s user => exact h.wantsToUpdate hCompletion s

theorem take (h : a.Sourced S) {step : AppStep} (hStep : step.Sourced S)
    (hOwner : ∀ owner ∈ step.owner, owner.Sourced S) : (a.take parses step).Sourced S := by
  cases step with
  | quit => exact h
  | wait call => exact h
  | trap what => exact h.congr rfl rfl rfl
  | completed completion error => exact h.complete error (hOwner _ rfl)
  | fetched comletion user =>
    cases comletion with
    | home => exact h.setUser hStep
    | edit s =>
      refine h.updateEdit (fun c hc => ?_) s
      obtain ⟨hUser, hViewModel, -, -⟩ := c.setUser_fields parses user
      refine ⟨?_, hViewModel ▸ hc.name, hViewModel ▸ hc.picture⟩
      rw [hUser]
      exact fun user' hMem => Option.mem_some_iff.mp hMem ▸ hStep
  | uploaded completion url =>
    have hUploaded : (a.updateEdit completion.1 (.imageUploaded url)).Sourced S :=
      h.updateEdit (fun _ hc => hc.upload hStep) completion.1
    exact hUploaded.congr rfl rfl rfl

theorem handleDone (h : a.Sourced S) {s : ℕ} {c : EditProfileViewController}
    (hScreen : a.edits[s]? = some c) : (a.handleDone parses s c).Sourced S := by
  have hEffects := (h.edits c (List.mem_of_getElem? hScreen)).effects
  refine handleDone_keeps h fun b hb effect hEffect => ?_
  cases effect with
  | wantsToUpdate user => exact hb.wantsToUpdate (hEffects _ hEffect user rfl) s
  | updateUserData user =>
    have hUser : S.Has user := hEffects _ hEffect user rfl
    refine hb.call _ ?_ ?_
    · rw [Operation.start]
      cases b.net.backend.currentUser with
      | none => trivial
      | some uid => exact .fullname user.fullname hUser.name
    · rw [Operation.start]
      cases b.net.backend.currentUser with
      | none => simp [Service.updateUserData, Step.owner]
      | some uid =>
        exact fun owner hMem => Option.mem_some_iff.mp hMem ▸ hUser
  | trap what => exact hb.congr rfl rfl rfl

theorem launch {net : AppNet} (hBackend : net.backend.Sourced S) (log : List Notice) :
    (App.launch net log).Sourced S := by
  have hLoaded : (loaded net.restart log).Sourced S :=
    ⟨hBackend, by simp [loaded, Net.restart], by simp [loaded], by simp [loaded]⟩
  rw [App.launch, authenticateUSer]
  split
  · exact hLoaded.congr rfl rfl rfl
  · exact hLoaded.fetchUserWithFirestore

theorem answer (h : a.Sourced S) {i : ℕ} {call : AppCall} {outcome : Outcome}
    {backend : Backend} {step : AppStep} (hTask : a.net.tasks[i]? = some (.waiting call))
    (hAnswered : Answered a.net.backend call outcome backend step)
    (hOutcome : outcome.Sourced S) : (a.answer i backend call step).Sourced S := by
  obtain ⟨hCall, hOwner⟩ := h.tasks _ (List.mem_of_getElem? hTask)
  obtain ⟨hBackend, hStep⟩ := hAnswered.sourced h.backend hCall hOutcome
  refine ⟨hBackend, forall_mem_set h.tasks ⟨hStep, fun owner hMem => ?_⟩, h.user, h.edits⟩
  exact hAnswered.owner owner hMem ▸ hOwner

theorem receive (h : a.Sourced S) {i : ℕ} {call : AppCall} {step : AppStep}
    (hTask : a.net.tasks[i]? = some (.answered call step)) : (a.receive i step).Sourced S := by
  obtain ⟨hStep, hOwner⟩ := h.tasks _ (List.mem_of_getElem? hTask)
  exact ⟨h.backend, forall_mem_set h.tasks (Task.sourced_ofStep hStep hOwner), h.user, h.edits⟩

/-- What an event brings is all that is new. -/
theorem step {e : Event} (h : a.Sourced S) (hEvent : e.Sourced S)
    (hStep : a.step parses e = some a') : a'.Sourced S := by
  cases step_stepped hStep with
  | launch => exact launch h.backend a.log
  | handleLogin email password hLogin =>
    have hShown : (a.showLoader true).Sourced S := h.congr rfl rfl rfl
    exact hShown.call _ trivial fun owner hMem => Option.mem_some_iff.mp hMem ▸ trivial
  | handleGoogleLogin hLogin =>
    exact h.call _ trivial fun owner hMem => Option.mem_some_iff.mp hMem ▸ trivial
  | handleSignUp profileImage email password fullname filename hLogin =>
    unfold App.handleSignUp
    split
    · exact h.congr rfl rfl rfl
    · rename_i image
      split
      · exact h
      · rename_i data hData
        have hShown : (a.showLoader true).Sourced S := h.congr rfl rfl rfl
        refine hShown.call _ ?_ ?_ <;> rw [Operation.start, hData]
        · exact hEvent
        · exact fun owner hMem => Option.mem_some_iff.mp hMem ▸ trivial
  | handleResetPassword email hLogin =>
    unfold App.handleResetPassword
    split
    · exact h
    · have hShown : (a.showLoader true).Sourced S := h.congr rfl rfl rfl
      exact hShown.call _ trivial fun owner hMem => Option.mem_some_iff.mp hMem ▸ trivial
  | logout signedOut hHome =>
    unfold App.logout
    split
    · exact ⟨⟨h.backend.documents, h.backend.images⟩, h.tasks, h.user, h.edits⟩
    · exact h
  | handleEditProfile hHome =>
    have hOpened : (({ a with edits := a.edits ++ [.new] } : App).present
        (.edit a.edits.length)).Sourced S :=
      ⟨h.backend, h.tasks, h.user, forall_mem_concat h.edits
        ⟨by simp [EditProfileViewController.new], by simp [EditProfileViewController.new],
          by simp [EditProfileViewController.new]⟩⟩
    refine hOpened.call _ ?_ ?_ <;> rw [Operation.start] <;>
      cases (({ a with edits := a.edits ++ [.new] } : App).present
        (.edit a.edits.length)).net.backend.currentUser <;>
      simp [Service.fetchUserWithFirestore, Step.Sourced, Call.Sourced, Step.owner, Call.owner,
        Owner.Sourced]
  | controllerWantsToDismiss hOnboarding =>
    have hDismissed : a.dismiss.Sourced S := h.congr rfl rfl rfl
    refine hDismissed.call _ ?_ ?_ <;> rw [Operation.start] <;>
      cases a.dismiss.net.backend.currentUser
    · trivial
    · exact .hasSeenOnboarding
    · simp [Service.updateUserHasSeenOnboardingFirestore, Step.owner]
    · exact fun owner hMem => Option.mem_some_iff.mp hMem ▸ trivial
  | handleCancel s hEdit => exact h.congr rfl rfl rfl
  | handleUpdateUserFullname s text hEdit =>
    exact h.updateEdit (fun _ hc => hc.edit hEvent) s
  | handleChangeProfilePhoto s hEdit => exact h.congr rfl rfl rfl
  | imagePickerController s image filename hPicker =>
    unfold App.imagePickerController
    split
    · exact h
    · rename_i image
      have hPicked : (a.updateEdit s .imagePicked).Sourced S :=
        h.updateEdit (fun _ hc => hc.pick) s
      have hShown : ((a.updateEdit s .imagePicked).showLoader true).Sourced S :=
        hPicked.congr rfl rfl rfl
      have hCalled := hShown.call (.updateProfileImage image filename (.imagePickerController s))
        (by
          rw [Operation.start, Service.updateProfileImage]
          cases image.jpegData 30 <;>
            cases ((a.updateEdit s .imagePicked).showLoader true).net.backend.currentUser <;>
            trivial)
        (by
          rw [Operation.start, Service.updateProfileImage]
          cases image.jpegData 30 <;>
            cases ((a.updateEdit s .imagePicked).showLoader true).net.backend.currentUser <;>
            simp [Step.owner, Call.owner, Owner.Sourced])
      exact hCalled.congr rfl rfl rfl
  | imagePickerControllerDidCancel s hPicker => exact h.congr rfl rfl rfl
  | handleDone s c hEdit hScreen hEnabled hHud => exact h.handleDone hScreen
  | perform i outcome call backend step hTask hAnswered => exact h.answer hTask hAnswered hEvent
  | deliver i call step hTask =>
    obtain ⟨hStep', hOwner⟩ := h.tasks _ (List.mem_of_getElem? hTask)
    exact (h.receive hTask).take hStep' hOwner

/-- A run that starts with such texts and brings no others. -/
theorem run {backend : Backend} {es : List Event} (hBackend : backend.Sourced S)
    (hEvents : ∀ e ∈ es, e.Sourced S)
    (hRun : Async.run (App.step parses) (start backend) es = some a) : a.Sourced S := by
  have hAlong : Along (App.step parses) (fun _ e => True ∧ e.Sourced S) (start backend) es :=
    (Along.of_forall fun _ _ => trivial).and_mem hEvents
  have hAlways : Always (App.step parses) (App.Sourced S) (start backend) es :=
    .of_invariant (fun _ _ _ h hEvent => h.step hEvent.2) (launch hBackend []) hAlong
  exact hAlways.last hRun

end App.Sourced

-- ---------------------------------------------------------------------------
-- Texts that have arrived
-- ---------------------------------------------------------------------------

/-- The texts that were stored at first, and those that the events have brought: what
was typed into the forms, what Auth knows about an account, and the URLs of Storage. -/
def Sources.arrived (b : Backend) (es : List App.Event) : Sources where
  emails := {email |
    (∃ uid doc, b.users uid = some doc ∧ (User.ofDictionary doc).email = email) ∨
    (∃ profileImage password fullname filename,
      .handleSignUp profileImage email password fullname filename ∈ es) ∨
    (∃ i user, .perform i (.signedIn user) ∈ es ∧ user.email = some email)}
  names := {fullname |
    (∃ uid doc, b.users uid = some doc ∧ (User.ofDictionary doc).fullname = fullname) ∨
    (∃ profileImage email password filename,
      .handleSignUp profileImage email password fullname filename ∈ es) ∨
    .handleUpdateUserFullname fullname ∈ es ∨
    (∃ i user, .perform i (.signedIn user) ∈ es ∧ user.displayName = some fullname)}
  pictures := {url |
    (∃ uid doc, b.users uid = some doc ∧ (User.ofDictionary doc).profileImageUrl = url) ∨
    (∃ filename image, b.images filename = some image ∧ image.url = url) ∨
    (∃ i, .perform i (.url url) ∈ es) ∨
    (∃ i user, .perform i (.signedIn user) ∈ es ∧ user.photoURL = some url)}

theorem Sources.arrived_backend {b : Backend} (es : List App.Event)
    (hUid : ∀ uid doc, b.users uid = some doc → (User.ofDictionary doc).uid = uid) :
    b.Sourced (arrived b es) where
  documents := fun uid doc hDoc => ⟨⟨Or.inl ⟨uid, doc, hDoc, rfl⟩, Or.inl ⟨uid, doc, hDoc, rfl⟩,
    Or.inl ⟨uid, doc, hDoc, rfl⟩⟩, hUid uid doc hDoc⟩
  images := fun filename image hImage => Or.inr (Or.inl ⟨filename, image, hImage, rfl⟩)

theorem Sources.arrived_event {b : Backend} {es : List App.Event} {e : App.Event} (hMem : e ∈ es) :
    e.Sourced (arrived b es) := by
  cases e with
  | handleSignUp profileImage email password fullname filename =>
    exact ⟨Or.inr (Or.inl ⟨_, _, _, _, hMem⟩), Or.inr (Or.inl ⟨_, _, _, _, hMem⟩)⟩
  | handleUpdateUserFullname text => exact Or.inr (Or.inr (Or.inl hMem))
  | perform i outcome =>
    cases outcome with
    | signedIn user =>
      exact ⟨fun email hEmail => Or.inr (Or.inr ⟨i, user, hMem, hEmail⟩),
        fun fullname hName => Or.inr (Or.inr (Or.inr ⟨i, user, hMem, hName⟩)),
        fun url hUrl => Or.inr (Or.inr (Or.inr ⟨i, user, hMem, hUrl⟩))⟩
    | url profileImageUrl => exact Or.inr (Or.inr (Or.inl ⟨i, hMem⟩))
    | _ => trivial
  | _ => trivial

/--
**Nothing is made up.** In every run from a launch on documents that carry their own
uid, every stored profile and the shown one consist of texts that were stored at
first or have arrived since, whatever the order of events, and each document still
carries the uid of its account.
-/
theorem profiles_have_sources {backend : Backend} {es : List App.Event}
    (hUid : ∀ uid doc, backend.users uid = some doc → (User.ofDictionary doc).uid = uid)
    (hRun : run (App.step parses) (App.start backend) es = some a) :
    (∀ uid doc, a.net.backend.users uid = some doc →
      (Sources.arrived backend es).Has (User.ofDictionary doc) ∧
        (User.ofDictionary doc).uid = uid) ∧
    ∀ user ∈ a.user, (Sources.arrived backend es).Has user := by
  have hSourced : a.Sourced (Sources.arrived backend es) :=
    .run (Sources.arrived_backend es hUid) (fun _ => Sources.arrived_event) hRun
  exact ⟨hSourced.backend.documents, hSourced.user⟩

/-- A sign-up with a picture, a later edit of the name, and the fetches between. -/
def signUpAndRename : List App.Event :=
  [.handleSignUp (some ⟨"selfie", true⟩) "kim@mail" "secret" "Kim" "file",
   .perform 0 (.url "selfie.jpg"), .deliver 0, .perform 0 (.url "selfie.jpg"), .deliver 0,
   .perform 0 (.signedIn ⟨"k", some "kim@mail", none, none⟩), .deliver 0, .perform 0 .success,
   .deliver 0, .perform 1 .success, .deliver 1, .controllerWantsToDismiss, .handleEditProfile,
   .perform 2 .success, .deliver 2, .perform 3 .success, .deliver 3,
   .handleUpdateUserFullname "Kim L", .handleDone, .perform 4 .success, .deliver 4]

theorem signUpAndRename_has_sources :
    ∃ a, run (App.step fun _ => true) (App.start .empty) signUpAndRename = some a ∧
      (∀ uid doc, a.net.backend.users uid = some doc →
        (Sources.arrived .empty signUpAndRename).Has (User.ofDictionary doc) ∧
          (User.ofDictionary doc).uid = uid) ∧
      ∀ user ∈ a.user, (Sources.arrived .empty signUpAndRename).Has user := by
  have hSome : (run (App.step fun _ => true) (App.start .empty) signUpAndRename).isSome = true :=
    rfl
  obtain ⟨a, hRun⟩ := Option.isSome_iff_exists.mp hSome
  exact ⟨a, hRun, profiles_have_sources (fun _ _ hDoc => absurd hDoc (by simp [Backend.empty]))
    hRun⟩

-- ---------------------------------------------------------------------------
-- Pictures that are there
-- ---------------------------------------------------------------------------

/-- Storage serves a picture at `url`. -/
def Backend.Serves (b : Backend) (url : String) : Prop :=
  ∃ filename image, b.images filename = some image ∧ image.url = url

/-- One of the sign-ins has brought this photo of the account. -/
def AccountPhoto (es : List App.Event) (url : String) : Prop :=
  ∃ i user, .perform i (.signedIn user) ∈ es ∧ user.photoURL = some url

/-- A picture is stored under a name that Storage does not have: `NSUUID().uuidString`. -/
def App.freshName (a : App) : App.Event → Bool
  | .perform i (.url _) =>
    match a.net.tasks[i]? with
    | some (.waiting (.putData filename _ _)) => (a.net.backend.images filename).isNone
    | _ => true
  | _ => true

/-- All texts, and the pictures that are there. -/
def Sources.served (es : List App.Event) (b : Backend) : Sources where
  emails := Set.univ
  names := Set.univ
  pictures := {url | b.Serves url ∨ AccountPhoto es url}

theorem Sources.served_mono {es : List App.Event} {b b' : Backend}
    (h : ∀ filename image, b.images filename = some image → b'.images filename = some image) :
    served es b ≤ served es b' := by
  refine ⟨subset_rfl, subset_rfl, ?_⟩
  rintro url (⟨filename, image, hImage, hUrl⟩ | hPhoto)
  · exact Or.inl ⟨filename, image, h filename image hImage, hUrl⟩
  · exact Or.inr hPhoto

/-- Storage keeps what it has, and the URL that a call brings is served after it. -/
theorem Answered.serves {b b' : Backend} {call : Call κ υ ι} {outcome : Outcome}
    {step : Step κ υ ι} (h : Answered b call outcome b' step)
    (hFresh : ∀ filename data callback url, call = .putData filename data callback →
      outcome = .url url → b.images filename = none) :
    (∀ filename image, b.images filename = some image → b'.images filename = some image) ∧
      ∀ url, outcome = .url url → b'.Serves url := by
  cases h with
  | authenticated request callback user b' hAuth =>
    obtain ⟨-, -, hImages, -⟩ := Backend.authenticate_some hAuth
    exact ⟨fun _ _ hImage => hImages ▸ hImage, by simp⟩
  | stored filename data callback url =>
    have hNone : b.images filename = none := hFresh filename data callback url rfl rfl
    constructor
    · intro filename' image hImage
      have hOther : filename' ≠ filename := by
        rintro rfl
        exact absurd (hNone.symm.trans hImage) (by simp)
      exact (Function.update_of_ne hOther _ b.images).trans hImage
    · rintro url' hUrl
      rw [Outcome.url.injEq] at hUrl
      exact ⟨filename, ⟨data, url⟩, Function.update_self filename _ b.images, hUrl⟩
  | located filename callback image hImage =>
    refine ⟨fun _ _ hOld => hOld, fun url hUrl => ?_⟩
    rw [Outcome.url.injEq] at hUrl
    exact ⟨filename, image, hImage, hUrl⟩
  | _ => exact ⟨fun _ _ hImage => hImage, by simp⟩

/-- What Storage serves grows with every event, and with it what a profile may refer to. -/
theorem App.step_served {es : List App.Event} {e : App.Event}
    (h : a.Sourced (.served es a.net.backend)) (hFresh : a.freshName e = true) (hMem : e ∈ es)
    (hStep : a.step parses e = some a') : a'.Sourced (.served es a'.net.backend) := by
  have hNew : Sources.served es a.net.backend ≤ Sources.served es a'.net.backend ∧
      e.Sourced (.served es a'.net.backend) := by
    rcases (App.step_stepped hStep).backend with
      ⟨hOther, session, hBackend⟩ | ⟨i, outcome, call, step, rfl, hTask, hAnswered⟩
    · refine ⟨Sources.served_mono fun _ _ hImage => hBackend ▸ hImage, ?_⟩
      cases e with
      | perform i outcome => exact absurd rfl (hOther i outcome)
      | handleSignUp => exact ⟨trivial, trivial⟩
      | _ => trivial
    · obtain ⟨hKept, hServes⟩ := hAnswered.serves fun filename data callback url
          hCall hOutcome => by
        subst hCall hOutcome
        rw [App.freshName, hTask] at hFresh
        exact Option.isNone_iff_eq_none.mp hFresh
      refine ⟨Sources.served_mono hKept, ?_⟩
      cases outcome with
      | signedIn user =>
        exact ⟨fun _ _ => trivial, fun _ _ => trivial,
          fun url hUrl => Or.inr ⟨i, user, hMem, hUrl⟩⟩
      | url profileImageUrl => exact Or.inl (hServes profileImageUrl rfl)
      | _ => trivial
  exact (h.mono hNew.1).step hNew.2 hStep

/--
**No dangling pictures.** If the stored profiles refer to pictures that Storage
serves and each upload gets a name of its own, then in every state of every run the
stored profiles, the shown one and those on the edit screens refer to pictures that
Storage serves, or to the photo of a Google account.
-/
theorem pictures_are_served {backend : Backend} {es : List App.Event}
    (hUid : ∀ uid doc, backend.users uid = some doc → (User.ofDictionary doc).uid = uid)
    (hServed : ∀ uid doc, backend.users uid = some doc →
      backend.Serves (User.ofDictionary doc).profileImageUrl)
    (hFresh : Along (App.step parses) (fun a e => a.freshName e = true) (App.start backend) es) :
    Always (App.step parses) (fun a =>
      (∀ uid doc, a.net.backend.users uid = some doc →
        a.net.backend.Serves (User.ofDictionary doc).profileImageUrl ∨
          AccountPhoto es (User.ofDictionary doc).profileImageUrl) ∧
      (∀ user ∈ a.user, a.net.backend.Serves user.profileImageUrl ∨
        AccountPhoto es user.profileImageUrl) ∧
      ∀ c ∈ a.edits, ∀ user ∈ c.user, a.net.backend.Serves user.profileImageUrl ∨
        AccountPhoto es user.profileImageUrl) (App.start backend) es := by
  have hBackend : backend.Sourced (.served es backend) :=
    ⟨fun uid doc hDoc => ⟨⟨trivial, trivial, Or.inl (hServed uid doc hDoc)⟩, hUid uid doc hDoc⟩,
      fun filename image hImage => Or.inl ⟨filename, image, hImage, rfl⟩⟩
  have hStart : (App.start backend).Sourced (.served es (App.start backend).net.backend) := by
    have hSame : (App.start backend).net.backend = backend := App.launch_backend _ _
    rw [hSame]
    exact .launch hBackend []
  have hSourced : Always (App.step parses) (fun a => a.Sourced (.served es a.net.backend))
      (App.start backend) es :=
    .of_invariant (fun _ _ _ h hCond hStep => App.step_served h hCond.1 hCond.2 hStep) hStart
      (hFresh.and_mem fun _ hMem => hMem)
  refine hSourced.mono fun a h => ⟨fun uid doc hDoc => ?_, fun user hUser => ?_, ?_⟩
  · exact (h.backend.documents uid doc hDoc).1.picture
  · exact (h.user user hUser).picture
  · exact fun c hMem user hUser => ((h.edits c hMem).user user hUser).picture

theorem signUpAndRename_are_served :
    (run (App.step fun _ => true) (App.start .empty) signUpAndRename).map App.user =
      some (some ⟨"kim@mail", "Kim L", true, "selfie.jpg", "k"⟩) ∧
    Always (App.step fun _ => true) (fun a =>
      (∀ uid doc, a.net.backend.users uid = some doc →
        a.net.backend.Serves (User.ofDictionary doc).profileImageUrl ∨
          AccountPhoto signUpAndRename (User.ofDictionary doc).profileImageUrl) ∧
      (∀ user ∈ a.user, a.net.backend.Serves user.profileImageUrl ∨
        AccountPhoto signUpAndRename user.profileImageUrl) ∧
      ∀ c ∈ a.edits, ∀ user ∈ c.user, a.net.backend.Serves user.profileImageUrl ∨
        AccountPhoto signUpAndRename user.profileImageUrl) (App.start .empty) signUpAndRename :=
  ⟨rfl, pictures_are_served (by simp [Backend.empty]) (by simp [Backend.empty])
    (by decide)⟩

end AggroApp
