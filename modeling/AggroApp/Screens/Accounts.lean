import AggroApp.Screens.Client
import AggroApp.Screens.Workload
import AggroApp.Store.Writers

/-!
# AggroApp — the profiles of other accounts

What `Store/Writers.lean` says of the operations in flight, read off the app: it is
one of the clients of the net, and it signs in by the outcomes of its calls only.

## Results

* `unattended_profile_kept` — while nobody is signed in to an account, and none of
  its operations is in flight, whatever is done on the screens leaves its profile.
* `lost_profile_stays_lost` — an account whose profile was not written at the
  sign-up gets none later, unless it signs in with Google.
-/

namespace AggroApp

open Async

variable {parses : URLParser} {a : App} {uid : Uid} {es : List App.Event}

/-- The app signs out, but not in. -/
theorem Net.Event.FromApp.not_signsIn {e : NetEvent} (h : e.FromApp) : ¬ e.SignsIn uid := by
  cases e with
  | perform i outcome => exact h.elim
  | session currentUser =>
    rintro rfl
    exact absurd h (by simp [FromApp])
  | _ => exact id

/--
**Other accounts are left alone.** From any state in which nobody is signed in to
the account and none of its operations is in flight, in every run that signs nobody
in to it, its profile stays what it is, and so do these two facts.
-/
theorem unattended_profile_kept (hUnattended : a.net.Unattended uid)
    (hOthers : ∀ i user, .perform i (.signedIn user) ∈ es → user.uid ≠ uid) :
    Always (App.step parses) (fun b => b.net.Unattended uid ∧
      b.net.backend.users uid = a.net.backend.users uid) a es := by
  have hKept : ∀ (n : AppNet) e n',
      n.Unattended uid ∧ n.backend.users uid = a.net.backend.users uid → ¬ e.SignsIn uid →
      n.step e = some n' →
      n'.Unattended uid ∧ n'.backend.users uid = a.net.backend.users uid := by
    rintro n e n' ⟨h, hUsers⟩ hEvent hStep
    obtain ⟨h', hUsers'⟩ := h.step hEvent hStep
    exact ⟨h', hUsers'.trans hUsers⟩
  have hAlong : Along (App.step parses) (fun _ e => ∀ i outcome, e = .perform i outcome →
      ¬ outcome.SignsIn uid) a es := by
    refine .of_mem fun e hMem b i outcome hPerform => ?_
    subst hPerform
    cases outcome with
    | signedIn user => exact hOthers i user hMem
    | _ => exact id
  exact App.always_of_net (fun _ _ outcome => ¬ outcome.SignsIn uid)
    (fun n e n' h hApp => hKept n e n' h hApp.not_signsIn)
    (fun n i outcome n' h hCond => hKept n (.perform i outcome) n' h hCond)
    ⟨hUnattended, rfl⟩ hAlong

/-- Gus signs in for the first time. -/
theorem firstGoogleLogin_unattended :
    Always (App.step fun _ => true) (fun b => b.net.Unattended "ann" ∧
      b.net.backend.users "ann" = (App.start annSignedOut).net.backend.users "ann")
      (App.start annSignedOut) firstGoogleLogin := by
  have hSession : (App.start annSignedOut).net.backend.currentUser = none := rfl
  have hTasks : (App.start annSignedOut).net.tasks = [] := rfl
  refine unattended_profile_kept ⟨by simp [hSession], by simp [hTasks]⟩ fun i user hMem => ?_
  simp only [firstGoogleLogin, List.mem_cons, App.Event.perform.injEq, reduceCtorEq, false_or,
    Outcome.signedIn.injEq, and_false, List.not_mem_nil, or_false] at hMem
  rw [hMem.2]
  decide

/-- The event grants `uid` a credential. -/
def App.credentialGranted (uid : Uid) (a : App) : App.Event → Bool
  | .perform i outcome => a.net.credentialGranted uid i outcome
  | _ => false

/--
**A lost profile stays lost.** From any state in which the account exists without a
profile, and nothing in flight creates one, in every run that grants the account no
credential, there is no profile, and no screen is handed one, however often the user
signs in with the password, signs up again, or launches the app.
-/
theorem lost_profile_stays_lost (hLost : a.net.Lost uid)
    (hCredential : Along (App.step parses) (fun b e => b.credentialGranted uid e = false) a es) :
    Always (App.step parses) (fun b => b.net.backend.users uid = none ∧
      ∀ callback comletion user,
        .answered (.getDocument uid callback) (.fetched comletion user) ∉ b.net.tasks) a es := by
  have hFromApp : ∀ (n : AppNet) e n', n.Lost uid → e.FromApp → n.step e = some n' →
      n'.Lost uid := by
    refine fun n e n' h hApp => h.step fun i outcome hPerform => ?_
    subst hPerform
    exact hApp.elim
  have hPerform : ∀ (n : AppNet) i outcome n', n.Lost uid →
      n.credentialGranted uid i outcome = false → n.step (.perform i outcome) = some n' →
      n'.Lost uid := by
    refine fun n i outcome n' h hFalse => h.step fun j outcome' hSame => ?_
    rw [Net.Event.perform.injEq] at hSame
    exact hSame.1 ▸ hSame.2 ▸ hFalse
  have hAlong : Along (App.step parses) (fun b e => ∀ i outcome, e = .perform i outcome →
      b.net.credentialGranted uid i outcome = false) a es := by
    refine .of_invariant (I := fun _ => True) (fun _ _ _ _ _ _ => trivial) ?_ trivial hCredential
    rintro b e b' - hFalse - i outcome rfl
    exact hFalse
  have hAlways : Always (App.step parses) (fun b => b.net.Lost uid) a es :=
    App.always_of_net (fun n i outcome => n.credentialGranted uid i outcome = false) hFromApp
      hPerform hLost hAlong
  exact hAlways.mono fun b h => ⟨h.document, fun _ _ _ hMem => h.tasks _ hMem rfl⟩

/-- A sign-up whose last write fails. -/
def failedSignUp : List App.Event :=
  [.handleSignUp (some ⟨"selfie", true⟩) "ann@mail" "secret" "Ann" "file",
   .perform 0 (.url "ann.jpg"), .deliver 0, .perform 0 (.url "ann.jpg"), .deliver 0,
   .perform 0 (.signedIn ⟨"ann", some "ann@mail", none, none⟩), .deliver 0,
   .perform 0 (.failure ⟨"offline"⟩), .deliver 0]

/-- Another sign-up, which Auth refuses, a login, and a launch with its fetch. -/
def triesAgain : List App.Event :=
  [.handleSignUp (some ⟨"selfie", true⟩) "ann@mail" "secret" "Ann" "file2",
   .perform 1 (.url "ann2.jpg"), .deliver 1, .perform 1 (.url "ann2.jpg"), .deliver 1,
   .perform 1 (.failure ⟨"The email address is already in use by another account."⟩), .deliver 1,
   .handleLogin "ann@mail" "secret",
   .perform 2 (.signedIn ⟨"ann", some "ann@mail", none, none⟩), .deliver 2, .perform 3 .success,
   .deliver 3, .launch, .perform 0 .success, .deliver 0]

theorem failedSignUp_stays_lost :
    ∃ a, run (App.step fun _ => true) (App.start .empty) failedSignUp = some a ∧
      (run (App.step fun _ => true) a triesAgain).isSome = true ∧
      Always (App.step fun _ => true) (fun b => b.net.backend.users "ann" = none ∧
        ∀ callback comletion user,
          .answered (.getDocument "ann" callback) (.fetched comletion user) ∉ b.net.tasks)
        a triesAgain := by
  refine ⟨_, rfl, rfl, lost_profile_stays_lost ⟨⟨⟨"ann", some "ann@mail"⟩, by decide, rfl⟩, rfl, ?_⟩
    (by decide)⟩
  show ∀ task ∈ ([.ended] : List AppTask), ¬ task.Restores "ann"
  simp [Task.Restores]

end AggroApp
