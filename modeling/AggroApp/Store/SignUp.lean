import AggroApp.Model.Backend

/-!
# AggroApp — what a sign-up leaves behind

`handleSignUp` uploads the chosen picture, asks for its URL, creates the
account and stores the profile, each step after the other. Nothing is undone
when a later step fails, so the picture outlives a failed sign-up, and the
account outlives a failed profile write.

* `signUp_not_atomic` — an attempt that leaves an account without a document.
* `signUp_outcome`    — what every attempt ends with: the whole sign-up, or
  unchanged documents with at most the picture and, when the profile write was
  what failed, the account left over.
-/

namespace AggroApp

variable {κ υ ι : Type}

/-- `RegistrationViewController.handleSignUp` up to its first backend call. With
no picture chosen it shows a message and starts nothing. -/
def handleSignUp (profileImage : Option UIImage) (email password fullname : String)
    (filename : Filename) (completion : κ) : Step κ υ ι :=
  match profileImage with
  | none => .quit
  | some image =>
    (Operation.handleSignUp email password fullname image filename completion).start none

/-- The attempt has not come to its end: a backend call is in flight. -/
def Step.InFlight : Step κ υ ι → Prop
  | .wait _ => True
  | _ => False

/-- The completion was told that all went well. -/
def Step.Succeeded : Step κ υ ι → Prop
  | .completed _ none => True
  | _ => False

/-- One account more, for an e-mail that had none. -/
def OneAccountMore (b b' : Backend) (uid : Uid) (email : String) : Prop :=
  (∀ account ∈ b.accounts, account.uid ≠ uid ∧ account.email ≠ some email) ∧
    b'.accounts = b.accounts ++ [⟨uid, some email⟩]

/-- One picture more, under a new name. -/
def OneImageMore (b b' : Backend) (filename : Filename) (url : String) : Prop :=
  b.images filename = none ∧
    ∃ data, b'.images = Function.update b.images filename (some ⟨data, url⟩)

/-- The whole sign-up: a new account, its document with all five fields, and the
picture that the document points to. -/
def SignedUp (b b' : Backend) (email fullname : String) (filename : Filename) : Prop :=
  ∃ uid url, OneAccountMore b b' uid email ∧ OneImageMore b b' filename url ∧
    b.users uid = none ∧ b'.users = b.users.setData uid (profileValues email fullname url uid)

/-- Nothing has changed. -/
def Untouched (b b' : Backend) : Prop :=
  b'.accounts = b.accounts ∧ b'.users = b.users ∧ b'.images = b.images

/-- What the sign-up would be if it were all or nothing. -/
def AllOrNothing (b b' : Backend) (step : Step κ υ ι) (email fullname : String)
    (filename : Filename) : Prop :=
  step.Succeeded ∧ SignedUp b b' email fullname filename ∨
    ¬ step.Succeeded ∧ Untouched b b'

/-- What a sign-up that has not succeeded may leave behind: the picture, and the
account together with the picture. -/
def LeftOver (b b' : Backend) (email : String) (filename : Filename) : Prop :=
  b'.users = b.users ∧
    (b'.accounts = b.accounts ∧ (b'.images = b.images ∨ ∃ url, OneImageMore b b' filename url) ∨
      ∃ uid url, OneAccountMore b b' uid email ∧ OneImageMore b b' filename url)

/-- The picture and the account are there when the profile write is refused; the
address cannot be registered again. -/
theorem signUp_not_atomic :
    ∃ (b' : Backend) (step : Step Unit Unit Unit),
      Backend.empty.drive (handleSignUp (some ⟨"pixels", true⟩) "ann@mail" "secret" "Ann" "name" ())
        [.url "name.jpg", .url "name.jpg", .signedIn ⟨"u", some "ann@mail", none, none⟩,
         .failure ⟨"denied"⟩] = some (b', step) ∧
      ¬ step.InFlight ∧ ¬ AllOrNothing Backend.empty b' step "ann@mail" "Ann" "name" ∧
      ∀ user, b'.authenticate (.createUser "ann@mail" "secret") user = none := by
  refine ⟨_, _, rfl, id, ?_, ?_⟩
  · rintro (⟨hDone, -⟩ | ⟨-, hAccounts, -⟩)
    · exact hDone
    · exact absurd hAccounts (by decide)
  · intro user
    simp [Backend.authenticate]

-- ---------------------------------------------------------------------------
-- From the last step to the first
-- ---------------------------------------------------------------------------

/-- What `createUser` does when it succeeds. -/
theorem createUser_some {b b' : Backend} {email password : String} {user : AuthUser}
    (h : b.authenticate (.createUser email password) user = some b') :
    OneAccountMore b b' user.uid email ∧ b.users user.uid = none := by
  rw [Backend.authenticate] at h
  split at h
  · exact absurd h (by simp)
  · rename_i hNew
    rw [Option.some.injEq] at h
    subst h
    simp only [List.any_eq_true, decide_eq_true_eq, not_or, not_exists, not_and,
      Bool.not_eq_true, Option.isSome_eq_false_iff, Option.isNone_iff_eq_none] at hNew
    exact ⟨⟨fun account hMem => hNew.1 account hMem, rfl⟩, hNew.2⟩

/-- The profile write: all, or nothing. -/
theorem drive_setData {b b' : Backend} {uid : Uid} {values : Fields} {completion : κ}
    {step : Step κ υ ι} {outcomes : List Outcome}
    (h : b.drive (.wait (.setData uid values completion)) outcomes = some (b', step)) :
    (step.InFlight ∧ outcomes.length < 1) ∨ (step.Succeeded ∧ b' = b.setData uid values) ∨
      (¬ step.Succeeded ∧ ¬ step.InFlight ∧ b' = b) := by
  rcases drive_wait h with ⟨rfl, rfl, rfl⟩ | ⟨outcome, rest, b₁, next, rfl, hAnswered, hRest⟩
  · exact Or.inl ⟨trivial, by simp⟩
  · cases hAnswered with
    | setFailed _ _ _ error =>
      obtain ⟨rfl, rfl, rfl⟩ := drive_ended (by simp) hRest
      exact Or.inr (Or.inr ⟨id, id, rfl⟩)
    | set =>
      obtain ⟨rfl, rfl, rfl⟩ := drive_ended (by simp) hRest
      exact Or.inr (Or.inl ⟨trivial, rfl⟩)

/-- From the account on: the account stays when the profile write fails. -/
theorem drive_register {b b' : Backend} {email password fullname url : String} {completion : κ}
    {step : Step κ υ ι} {outcomes : List Outcome}
    (h : b.drive (Service.registerUserWithFirestore email password fullname url completion)
      outcomes = some (b', step)) :
    (step.InFlight ∧ outcomes.length < 2) ∨
    (step.Succeeded ∧ b'.images = b.images ∧ ∃ uid, OneAccountMore b b' uid email ∧
      b.users uid = none ∧
      b'.users = b.users.setData uid (profileValues email fullname url uid)) ∨
    (¬ step.Succeeded ∧ ¬ step.InFlight ∧ b'.images = b.images ∧ b'.users = b.users ∧
      (b'.accounts = b.accounts ∨ ∃ uid, OneAccountMore b b' uid email)) := by
  rcases drive_wait h with ⟨rfl, rfl, rfl⟩ | ⟨outcome, rest, b₁, next, rfl, hAnswered, hRest⟩
  · exact Or.inl ⟨trivial, by simp⟩
  · cases hAnswered with
    | authFailed _ _ error =>
      obtain ⟨rfl, rfl, rfl⟩ := drive_ended (by simp [AuthCallback.run]) hRest
      exact Or.inr (Or.inr ⟨id, id, rfl, rfl, Or.inl rfl⟩)
    | authenticated _ _ user _ hAuth =>
      obtain ⟨hAccount, hNone⟩ := createUser_some hAuth
      obtain ⟨-, hUsers, hImages, -⟩ := Backend.authenticate_some hAuth
      rcases drive_setData hRest with ⟨hFlight, hLen⟩ | ⟨hDone, rfl⟩ | ⟨hNot, hEnd, rfl⟩
      · exact Or.inl ⟨hFlight, by rw [List.length_cons]; omega⟩
      · refine Or.inr (Or.inl ⟨hDone, hImages, user.uid, hAccount, hNone, ?_⟩)
        rw [← hUsers]
        rfl
      · exact Or.inr (Or.inr ⟨hNot, hEnd, hImages, hUsers, Or.inr ⟨user.uid, hAccount⟩⟩)

/-- From the URL on: nothing at all happens without one. -/
theorem drive_locate {b b' : Backend} {filename : Filename} {email password fullname : String}
    {completion : κ} {step : Step κ υ ι} {outcomes : List Outcome}
    (h : b.drive (.wait (.downloadURL filename (.handleSignUp email password fullname completion)))
      outcomes = some (b', step)) :
    (step.InFlight ∧ outcomes.length < 3) ∨
    (¬ step.Succeeded ∧ ¬ step.InFlight ∧ Untouched b b') ∨
    ∃ image rest, b.images filename = some image ∧ outcomes.length = rest.length + 1 ∧
      b.drive (Service.registerUserWithFirestore email password fullname image.url completion)
        rest = some (b', step) := by
  rcases drive_wait h with ⟨rfl, rfl, rfl⟩ | ⟨outcome, rest, b₁, next, rfl, hAnswered, hRest⟩
  · exact Or.inl ⟨trivial, by simp⟩
  · cases hAnswered with
    | locateFailed _ _ error =>
      obtain ⟨rfl, rfl, rfl⟩ := drive_ended (by simp [StorageCallback.run]) hRest
      exact Or.inr (Or.inl ⟨id, id, rfl, rfl, rfl⟩)
    | located _ _ image hImage => exact Or.inr (Or.inr ⟨image, rest, hImage, rfl, hRest⟩)

/--
**What a sign-up ends with.** From any backend, with a picture name that
Storage has not seen, an attempt is in flight for at most three calls; it ends
with the whole sign-up exactly when it reports success, and otherwise leaves
the documents as they were and nothing behind but what `LeftOver` says.
-/
theorem signUp_outcome {b b' : Backend} {profileImage : Option UIImage}
    {email password fullname : String} {filename : Filename} {completion : κ}
    {outcomes : List Outcome} {step : Step κ υ ι} (hName : b.images filename = none)
    (hRun : b.drive (handleSignUp profileImage email password fullname filename completion)
      outcomes = some (b', step)) :
    (step.InFlight ∧ outcomes.length < 4) ∨
    (step.Succeeded ∧ SignedUp b b' email fullname filename) ∨
    (¬ step.Succeeded ∧ ¬ step.InFlight ∧ LeftOver b b' email filename) := by
  have hQuit : handleSignUp profileImage email password fullname filename completion =
      (.quit : Step κ υ ι) →
      ¬ step.Succeeded ∧ ¬ step.InFlight ∧ LeftOver b b' email filename := by
    intro hStart
    rw [hStart] at hRun
    obtain ⟨rfl, rfl, rfl⟩ := drive_ended (by simp) hRun
    exact ⟨id, id, rfl, Or.inl ⟨rfl, Or.inl rfl⟩⟩
  cases profileImage with
  | none => exact Or.inr (Or.inr (hQuit rfl))
  | some image =>
    cases hData : image.jpegData 10 with
    | none => exact Or.inr (Or.inr (hQuit (by simp [handleSignUp, Operation.start, hData])))
    | some data =>
      rw [handleSignUp, Operation.start, hData] at hRun
      rcases drive_wait hRun with ⟨rfl, rfl, rfl⟩ |
        ⟨outcome, rest, b₁, next, rfl, hAnswered, hRest⟩
      · exact Or.inl ⟨trivial, by simp⟩
      · cases hAnswered with
        | storeFailed _ _ _ error =>
          -- nothing is stored under the name, so there is no URL either
          rcases drive_locate hRest with ⟨hFlight, hLen⟩ | ⟨hNot, hEnd, hA, hU, hI⟩ |
            ⟨image, rest', hImage, -, -⟩
          · exact Or.inl ⟨hFlight, by rw [List.length_cons]; omega⟩
          · exact Or.inr (Or.inr ⟨hNot, hEnd, hU, Or.inl ⟨hA, Or.inl hI⟩⟩)
          · rw [hName] at hImage
            exact absurd hImage (by simp)
        | stored _ _ _ url =>
          have hOne : ∀ b'' : Backend, b''.images = (b.store filename data url).images →
              OneImageMore b b'' filename url := fun b'' hImages => ⟨hName, data, hImages⟩
          rcases drive_locate hRest with ⟨hFlight, hLen⟩ | ⟨hNot, hEnd, hA, hU, hI⟩ |
            ⟨image, rest', hImage, hLen, hRegister⟩
          · exact Or.inl ⟨hFlight, by rw [List.length_cons]; omega⟩
          · exact Or.inr (Or.inr ⟨hNot, hEnd, hU, Or.inl ⟨hA, Or.inr ⟨url, hOne b' hI⟩⟩⟩)
          · have hUrl : image.url = url := by
              have hStored : Function.update b.images filename (some ⟨data, url⟩) filename =
                  some image := hImage
              rw [Function.update_self, Option.some.injEq] at hStored
              exact hStored ▸ rfl
            rw [hUrl] at hRegister
            rcases drive_register hRegister with ⟨hFlight, hLen'⟩ |
              ⟨hDone, hI, uid, hAccount, hNone, hU⟩ | ⟨hNot, hEnd, hI, hU, hA⟩
            · exact Or.inl ⟨hFlight, by rw [List.length_cons]; omega⟩
            · exact Or.inr (Or.inl ⟨hDone, uid, url, hAccount, hOne b' hI, hNone, hU⟩)
            · refine Or.inr (Or.inr ⟨hNot, hEnd, hU, ?_⟩)
              rcases hA with hA | ⟨uid, hAccount⟩
              · exact Or.inl ⟨hA, Or.inr ⟨url, hOne b' hI⟩⟩
              · exact Or.inr ⟨uid, url, hAccount, hOne b' hI⟩

/-- An attempt on the empty backend that goes through. -/
theorem signUp_completed :
    ∃ (b' : Backend) (step : Step Unit Unit Unit),
      Backend.empty.drive (handleSignUp (some ⟨"pixels", true⟩) "ann@mail" "secret" "Ann" "name" ())
        [.url "name.jpg", .url "name.jpg", .signedIn ⟨"u", some "ann@mail", none, none⟩,
         .success] = some (b', step) ∧
      SignedUp Backend.empty b' "ann@mail" "Ann" "name" := by
  refine ⟨_, _, rfl, ?_⟩
  have hName : Backend.empty.images "name" = none := rfl
  rcases signUp_outcome hName
    (show Backend.empty.drive (handleSignUp (some ⟨"pixels", true⟩) "ann@mail" "secret" "Ann"
      "name" ()) [.url "name.jpg", .url "name.jpg", .signedIn ⟨"u", some "ann@mail", none, none⟩,
      .success] = some (_, (.completed () none : Step Unit Unit Unit)) from rfl) with
    ⟨hFlight, -⟩ | ⟨-, hSigned⟩ | ⟨hNot, -⟩
  · exact absurd hFlight id
  · exact hSigned
  · exact absurd trivial hNot

end AggroApp
