import AggroApp.Screens.Presses

/-!
# AggroApp — versions of a profile

Nothing on the client carries a version. A fetch reads the document at some
moment between its call and its delivery; what it has read is handed to the home
screen, or to an edit screen and from there, with the next save, to the home
screen.

`Versions` are notes on one field, name or picture, of the document of one
account. A version is the number of writes of the field that have been applied;
a `Tag` says for a value on the client which version it is, and whether it was
read from the document. The `mark` is the newest version that the home screen
has been told.

* `Versions.observe`    — what is noted of each event.
* `App.untold_user`     — no assignment to the home screen's user is missed.
* `Bounded.observe`     — no version is newer than the last write.
-/

namespace AggroApp

open Async
open EditProfileViewController (tells)

variable {parses : URLParser} {a a' : App}

inductive ProfileField
  | fullname
  | profileImageUrl
  deriving DecidableEq, Repr

def ProfileField.key : ProfileField → String
  | .fullname => "fullname"
  | .profileImageUrl => "profileImageUrl"

/-- Where a value of the field comes from. -/
structure Tag where
  version : ℕ
  isRead : Bool
  deriving DecidableEq, Repr

/-- Notes on a field: the number of its writes, the newest version that the home
screen has been told, and the tags of the copies: on the home screen, with the
operations in flight, and on the edit screens, where an uploaded picture is kept
apart from the fetched user. -/
structure Versions where
  stored : ℕ
  mark : ℕ
  home : Tag
  task : ℕ → Tag
  edit : ℕ → Tag
  picture : ℕ → ℕ

namespace Versions

def blank : Versions := ⟨0, 0, ⟨0, false⟩, fun _ => ⟨0, false⟩, fun _ => ⟨0, false⟩, fun _ => 0⟩

variable (field : ProfileField) (uid : Uid)

/-- The tag of the field in the user of edit screen `c`, number `s`, with the uploaded
picture if one was picked. -/
def copied (s : ℕ) (c : EditProfileViewController) (v : Versions) : Tag :=
  match field with
  | .fullname => v.edit s
  | .profileImageUrl => if c.imageChanged then ⟨v.picture s, false⟩ else v.edit s

/-- The tag of the field in the user that a write of this screen captures. A new name
has no version before it is stored. -/
def captured (s : ℕ) (c : EditProfileViewController) (v : Versions) : Tag :=
  match field with
  | .fullname => ⟨0, false⟩
  | .profileImageUrl => v.copied .profileImageUrl s c

/-- The tag of the value that the event assigns to the field of
`HomeViewController.user`. -/
def told (a : App) (e : App.Event) (v : Versions) : Option Tag :=
  match e with
  | .deliver i =>
    match a.net.tasks[i]? with
    | some (.answered _ (.fetched .home _)) => some (v.task i)
    | some (.answered _ (.completed (.updateUserData _ _) _)) => some (v.task i)
    -- the user that is there is assigned again
    | some (.answered _ (.completed .controllerWantsToDismiss _)) => a.user.map fun _ => v.home
    | _ => none
  | .handleDone =>
    match a.editing with
    | some (s, c) => if tells c.updateUserData = [] then none else some (v.copied field s c)
    | none => none
  | _ => none

/-- A call of operation `i` has been carried out. -/
def performed (i : ℕ) (call : AppCall) (v : Versions) : Versions :=
  match call with
  | .getDocument u _ =>
    { v with task := Function.update v.task i (if u = uid then ⟨v.stored, true⟩ else ⟨0, false⟩) }
  | .observeSingleEvent _ _ => { v with task := Function.update v.task i ⟨0, false⟩ }
  | .setData u _ _ => if u = uid then { v with stored := v.stored + 1 } else v
  | .updateData u data _ =>
    if u = uid ∧ (data.lookup field.key).isSome then
      { v with
        stored := v.stored + 1
        task := Function.update v.task i ⟨v.stored + 1, false⟩ }
    else
      v
  | _ => v

/-- The operations that start from number `n` on carry `tag`. -/
def started (n : ℕ) (tag : Tag) (v : Versions) : Versions :=
  { v with task := fun i => if i < n then v.task i else tag }

/-- The copies that an event makes. -/
def follow (a : App) (e : App.Event) (v : Versions) : Versions :=
  match e with
  | .perform i .success =>
    match a.net.tasks[i]? with
    | some (.waiting call) => v.performed field uid i call
    | _ => v
  | .deliver i =>
    match a.net.tasks[i]? with
    | some (.answered _ (.fetched (.edit s) _)) =>
      { v with edit := Function.update v.edit s (v.task i) }
    | some (.answered _ (.uploaded (.imagePickerController s) _)) =>
      { v with picture := Function.update v.picture s (v.task i).version }
    | _ => v
  -- the URL of an upload is no version until it is stored
  | .imagePickerController _ _ => v.started a.net.tasks.length ⟨0, false⟩
  | .handleDone =>
    match a.editing with
    | some (s, c) => v.started a.net.tasks.length (v.captured field s c)
    | none => v
  | _ => v

def assign (v : Versions) : Option Tag → Versions
  | none => v
  | some tag => { v with home := tag, mark := max v.mark tag.version }

/-- Take notes of one event. -/
def observe (a : App) (e : App.Event) (v : Versions) : Versions :=
  (v.follow field uid a e).assign (v.told field a e)

end Versions

/-- The reads that hand on what they found. -/
theorem Call.eq_of_owner {call : AppCall} {comletion : UserCompletion}
    (h : call.owner = .value comletion) :
    (∃ u, call = .getDocument u (.fetchUserWithFirestore comletion)) ∨
      ∃ u, call = .observeSingleEvent u (.fetchUser comletion) := by
  cases call with
  | getDocument u callback =>
    cases callback with
    | signInWitnGoogleFirestore user completion => exact absurd h (by simp [Call.owner])
    | fetchUserWithFirestore comletion' =>
      rw [Call.owner, Owner.value.injEq] at h
      exact Or.inl ⟨u, h ▸ rfl⟩
  | observeSingleEvent u callback =>
    cases callback with
    | signInWithGoogle user completion => exact absurd h (by simp [Call.owner])
    | fetchUser comletion' =>
      rw [Call.owner, Owner.value.injEq] at h
      exact Or.inr ⟨u, h ▸ rfl⟩
  | updateData u data callback => cases callback <;> exact absurd h (by simp [Call.owner])
  | putData filename data callback => cases callback <;> exact absurd h (by simp [Call.owner])
  | downloadURL filename callback => cases callback <;> exact absurd h (by simp [Call.owner])
  | _ => exact absurd h (by simp [Call.owner])

-- ---------------------------------------------------------------------------
-- Versions in bounds
-- ---------------------------------------------------------------------------

/-- What was read is at least as new as version `m`. -/
def Tag.Reaches (m : ℕ) (tag : Tag) : Prop := tag.isRead = true → m ≤ tag.version

theorem Tag.reaches_of_not_read {m version : ℕ} : (⟨version, false⟩ : Tag).Reaches m :=
  fun hRead => absurd hRead (by simp)

theorem Tag.Reaches.max {m n : ℕ} {tag : Tag} (hm : tag.Reaches m) (hn : tag.Reaches n) :
    tag.Reaches (max m n) :=
  fun hRead => Nat.max_le.mpr ⟨hm hRead, hn hRead⟩

namespace Versions

variable {field : ProfileField} {uid : Uid} {v : Versions} {e : App.Event}

/-- No version is newer than the last write. -/
structure Bounded (v : Versions) : Prop where
  mark : v.mark ≤ v.stored
  home : v.home.version ≤ v.stored
  task : ∀ i, (v.task i).version ≤ v.stored
  edit : ∀ s, (v.edit s).version ≤ v.stored
  picture : ∀ s, v.picture s ≤ v.stored

theorem Bounded.blank : Versions.blank.Bounded :=
  ⟨Nat.le_refl 0, Nat.le_refl 0, fun _ => Nat.le_refl 0, fun _ => Nat.le_refl 0,
    fun _ => Nat.le_refl 0⟩

/-- A write makes room. -/
theorem Bounded.write (h : v.Bounded) : { v with stored := v.stored + 1 }.Bounded :=
  ⟨Nat.le_succ_of_le h.mark, Nat.le_succ_of_le h.home, fun i => Nat.le_succ_of_le (h.task i),
    fun s => Nat.le_succ_of_le (h.edit s), fun s => Nat.le_succ_of_le (h.picture s)⟩

theorem Bounded.set_task (h : v.Bounded) {i : ℕ} {tag : Tag} (hTag : tag.version ≤ v.stored) :
    { v with task := Function.update v.task i tag }.Bounded := by
  refine ⟨h.mark, h.home, fun j => ?_, h.edit, h.picture⟩
  dsimp only
  rw [Function.update_apply]
  split
  · exact hTag
  · exact h.task j

theorem Bounded.started (h : v.Bounded) (n : ℕ) {tag : Tag} (hTag : tag.version ≤ v.stored) :
    (v.started n tag).Bounded := by
  refine ⟨h.mark, h.home, fun i => ?_, h.edit, h.picture⟩
  dsimp only [Versions.started]
  split
  · exact h.task i
  · exact hTag

theorem Bounded.performed (h : v.Bounded) (i : ℕ) (call : AppCall) :
    (v.performed field uid i call).Bounded := by
  unfold Versions.performed
  split
  · refine h.set_task ?_
    split
    · exact Nat.le_refl v.stored
    · exact Nat.zero_le v.stored
  · exact h.set_task (Nat.zero_le v.stored)
  · split
    · exact h.write
    · exact h
  · split
    · exact h.write.set_task (Nat.le_refl (v.stored + 1))
    · exact h
  · exact h

theorem Bounded.copied (h : v.Bounded) (s : ℕ) (c : EditProfileViewController) :
    (v.copied field s c).version ≤ v.stored := by
  unfold Versions.copied
  split
  · exact h.edit s
  · split
    · exact h.picture s
    · exact h.edit s

theorem Bounded.captured (h : v.Bounded) (s : ℕ) (c : EditProfileViewController) :
    (v.captured field s c).version ≤ v.stored := by
  cases field with
  | fullname => exact Nat.zero_le v.stored
  | profileImageUrl => exact h.copied s c

theorem Bounded.told (h : v.Bounded) : ∀ tag ∈ v.told field a e, tag.version ≤ v.stored := by
  intro tag hTag
  unfold Versions.told at hTag
  split at hTag
  · split at hTag
    · exact Option.mem_some_iff.mp hTag ▸ h.task _
    · exact Option.mem_some_iff.mp hTag ▸ h.task _
    · obtain ⟨user, -, rfl⟩ := Option.map_eq_some_iff.mp hTag
      exact h.home
    · exact absurd hTag (by simp)
  · split at hTag
    · rename_i s c hEditing
      split at hTag
      · exact absurd hTag (by simp)
      · exact Option.mem_some_iff.mp hTag ▸ h.copied s c
    · exact absurd hTag (by simp)
  · exact absurd hTag (by simp)

theorem Bounded.follow (h : v.Bounded) : (v.follow field uid a e).Bounded := by
  unfold Versions.follow
  split
  · split
    · exact h.performed _ _
    · exact h
  · split
    · refine ⟨h.mark, h.home, h.task, fun t => ?_, h.picture⟩
      dsimp only
      rw [Function.update_apply]
      split
      · exact h.task _
      · exact h.edit t
    · refine ⟨h.mark, h.home, h.task, h.edit, fun t => ?_⟩
      dsimp only
      rw [Function.update_apply]
      split
      · exact h.task _
      · exact h.picture t
    · exact h
  · exact h.started _ (Nat.zero_le v.stored)
  · split
    · rename_i s c hEditing
      exact h.started _ (h.captured s c)
    · exact h
  · exact h

theorem performed_stored (i : ℕ) (call : AppCall) :
    v.stored ≤ (v.performed field uid i call).stored := by
  unfold Versions.performed
  split
  · exact Nat.le_refl v.stored
  · exact Nat.le_refl v.stored
  · split
    · exact Nat.le_succ v.stored
    · exact Nat.le_refl v.stored
  · split
    · exact Nat.le_succ v.stored
    · exact Nat.le_refl v.stored
  · exact Nat.le_refl v.stored

theorem follow_stored : v.stored ≤ (v.follow field uid a e).stored := by
  unfold Versions.follow
  split
  · split
    · exact performed_stored _ _
    · exact Nat.le_refl v.stored
  · split <;> exact Nat.le_refl v.stored
  · exact Nat.le_refl v.stored
  · split <;> exact Nat.le_refl v.stored
  · exact Nat.le_refl v.stored

theorem observe_stored : v.stored ≤ (v.observe field uid a e).stored := by
  have hAssign : (v.observe field uid a e).stored = (v.follow field uid a e).stored := by
    unfold Versions.observe
    cases v.told field a e <;> rfl
  rw [hAssign]
  exact follow_stored

theorem Bounded.assign (h : v.Bounded) {tag : Option Tag}
    (hTag : ∀ t ∈ tag, t.version ≤ v.stored) : (v.assign tag).Bounded := by
  cases tag with
  | none => exact h
  | some t =>
    exact ⟨Nat.max_le.mpr ⟨h.mark, hTag t rfl⟩, hTag t rfl, h.task, h.edit, h.picture⟩

theorem Bounded.observe (h : v.Bounded) : (v.observe field uid a e).Bounded :=
  h.follow.assign fun tag hTag => Nat.le_trans (h.told tag hTag) follow_stored

/-- The notes of a call are about its own operation. -/
theorem performed_frame (field : ProfileField) (uid : Uid) (v : Versions) (i : ℕ)
    (call : AppCall) :
    (v.performed field uid i call).mark = v.mark ∧
      (v.performed field uid i call).home = v.home ∧
      (v.performed field uid i call).edit = v.edit ∧
      (v.performed field uid i call).picture = v.picture ∧
      ∀ j, j ≠ i → (v.performed field uid i call).task j = v.task j := by
  unfold Versions.performed
  split
  · exact ⟨rfl, rfl, rfl, rfl, fun j hNe => Function.update_of_ne hNe _ _⟩
  · exact ⟨rfl, rfl, rfl, rfl, fun j hNe => Function.update_of_ne hNe _ _⟩
  · split <;> exact ⟨rfl, rfl, rfl, rfl, fun _ _ => rfl⟩
  · split
    · exact ⟨rfl, rfl, rfl, rfl, fun j hNe => Function.update_of_ne hNe _ _⟩
    · exact ⟨rfl, rfl, rfl, rfl, fun _ _ => rfl⟩
  · exact ⟨rfl, rfl, rfl, rfl, fun _ _ => rfl⟩

/-- A fetch reads what is stored now; what another operation has captured stays, or is
stored now. -/
theorem performed_reaches (hMark : v.mark ≤ v.stored) {i : ℕ} {call : AppCall}
    (hOld : (∀ comletion, call.owner ≠ .value comletion) → (v.task i).Reaches v.mark) :
    ((v.performed field uid i call).task i).Reaches v.mark := by
  cases call with
  | getDocument u callback =>
    dsimp only [Versions.performed]
    rw [Function.update_self]
    split
    · exact fun _ => hMark
    · exact Tag.reaches_of_not_read
  | observeSingleEvent u callback =>
    dsimp only [Versions.performed]
    rw [Function.update_self]
    exact Tag.reaches_of_not_read
  | setData u values completion =>
    dsimp only [Versions.performed]
    split <;> exact hOld (by simp [Call.owner])
  | updateData u data callback =>
    dsimp only [Versions.performed]
    split
    · dsimp only
      rw [Function.update_self]
      exact Tag.reaches_of_not_read
    · exact hOld (by cases callback <;> simp [Call.owner])
  | putData filename data callback => exact hOld (by cases callback <;> simp [Call.owner])
  | downloadURL filename callback => exact hOld (by cases callback <;> simp [Call.owner])
  | _ => exact hOld (by simp [Call.owner])

end Versions

-- ---------------------------------------------------------------------------
-- Assignments
-- ---------------------------------------------------------------------------

/-- The user of the home screen changes with a launch, and when it is told something. -/
theorem App.untold_user {field : ProfileField} {v : Versions} {e : App.Event}
    (hStep : a.step parses e = some a') (hLaunch : e ≠ .launch)
    (hTold : v.told field a e = none) : a'.user = a.user := by
  cases step_stepped hStep with
  | launch => exact absurd rfl hLaunch
  | handleSignUp profileImage email password fullname filename hLogin =>
    unfold App.handleSignUp
    split
    · rfl
    · split <;> rfl
  | handleResetPassword email hLogin =>
    unfold App.handleResetPassword
    split <;> rfl
  | logout signedOut hHome =>
    unfold App.logout
    split <;> rfl
  | imagePickerController s image filename hPicker =>
    unfold App.imagePickerController
    split <;> rfl
  | handleDone s c hEdit hScreen hEnabled hHud =>
    have hEditing : a.editing = some (s, c) := editing_of_presented hEdit hScreen
    simp only [Versions.told, hEditing] at hTold
    split at hTold
    · rename_i hTells
      exact (handleDone_silent hTells).1
    · exact absurd hTold (by simp)
  | deliver i call step hTask =>
    simp only [Versions.told, hTask] at hTold
    cases step with
    | completed completion error =>
      cases completion with
      | handleLogin | handleSignUp | handleResetPassword => cases error <;> rfl
      | handleGoogleLogin => rfl
      | controllerWantsToDismiss =>
        have hUser : (a.receive i (.completed .controllerWantsToDismiss error)).user = none :=
          Option.map_eq_none_iff.mp hTold
        show (App.complete parses (a.receive i _) error .controllerWantsToDismiss).user = a.user
        rw [complete_unloaded hUser]
        rfl
      | updateUserData s user => exact absurd hTold (by simp)
    | fetched comletion user =>
      cases comletion with
      | home => exact absurd hTold (by simp)
      | edit s => rfl
    | _ => rfl
  | _ => rfl

end AggroApp
