/-
  When the credentials are wiped.

  The password and the 2FA code are needed while a flow runs.  Every store that ends a flow clears
  them, except the two failure exits of a restore: these go back to `LoggedOut` and clear only the
  pointers.  A restore that is overtaken by `logout` and a new login therefore leaves that login's
  password behind in a logged-out account (`restoreOverLogin`).  Nothing else does
  (`secrets_wiped_iff`).
-/
import Mathlib.Data.List.Basic
import WrapperPaas.Account.Equiv.Step

namespace WrapperPaas

open Sys

/-- In a state in which no flow needs them, password and 2FA code are empty. -/
def SecretsWiped (s : Sys) : Prop :=
  s.acct.state = .loggedOut ∨ s.acct.state = .authenticated ∨ s.acct.state = .failed →
    s.acct.password = "" ∧ s.acct.twofaCode = ""

/-- The condition on a run: a restore takes a failure exit only while neither a password nor a code
is stored. -/
def FailureQuiet (s : Sys) : Act → Prop
  | .restoreFail _ => s.acct.password = "" ∧ s.acct.twofaCode = ""
  | _ => True

instance : DecidableRel FailureQuiet := fun s act => by
  apply act.casesOn (motive := (Decidable <| FailureQuiet s ·)) <;> intros <;>
    dsimp only [FailureQuiet] <;> infer_instance

namespace SecretsWiped

variable {s s' : Sys}

/-- A step after which a flow is running. -/
theorem of_busy (h : s'.acct.busy) : SecretsWiped s' := by
  intro hrest
  rcases h with h | h
  · simp [h] at hrest
  · simp [h] at hrest

/-- A step that stores neither the state nor a secret. -/
theorem same (hw : SecretsWiped s) (hstate : s'.acct.state = s.acct.state)
    (hpassword : s'.acct.password = s.acct.password)
    (hcode : s'.acct.twofaCode = s.acct.twofaCode) : SecretsWiped s' := by
  intro hrest
  rw [hpassword, hcode]
  rw [hstate] at hrest
  exact hw hrest

theorem step {act : Act} (hG : FailureQuiet s act) (h : s.step act = some s')
    (hw : SecretsWiped s) : SecretsWiped s' := by
  cases step_trans h with
  | refused _ => exact hw
  | login hacct =>
    obtain ⟨-, rfl⟩ := Account.startLogin_eq_some hacct
    exact of_busy (.inl rfl)
  | submit hacct =>
    obtain ⟨-, rfl⟩ := Account.submit2fa_eq_some hacct
    exact of_busy (.inl rfl)
  | raise => exact hw.same rfl rfl rfl
  | call _ => exact hw.same rfl rfl rfl
  | loc _ _ _ => exact hw.same rfl rfl rfl
  | nullDeref _ _ _ => exact hw.same rfl rfl rfl
  | reset _ => exact fun _ => ⟨rfl, rfl⟩
  | begin _ hacct =>
    obtain ⟨-, rfl⟩ := Account.restoreBegin_eq_some hacct
    exact of_busy (.inl rfl)
  | giveUp _ =>
    -- the exit clears nothing, so there must be nothing to clear
    exact fun _ => hG
  | restored _ _ _ => exact hw.same rfl rfl rfl
  | restorePublish _ => exact fun _ => ⟨rfl, rfl⟩
  | park _ _ => exact of_busy (.inr rfl)
  | promptThrough _ _ => exact of_busy (.inl rfl)
  | wake _ _ => exact of_busy (.inl rfl)
  | timeout _ => exact of_busy (.inl rfl)
  | harvested _ _ _ _ => exact hw.same rfl rfl rfl
  | fail _ => exact fun _ => ⟨rfl, rfl⟩
  | publish _ => exact fun _ => ⟨rfl, rfl⟩

theorem init : SecretsWiped accountMachine.init := fun _ => ⟨rfl, rfl⟩

end SecretsWiped

/-- After a failure exit the account is logged out and has the secrets it had before. -/
theorem step_restoreFail {s s' : Sys} {t : ThreadId} (h : s.step (.restoreFail t) = some s') :
    s'.acct = s.acct.restoreGiveUp := by
  obtain ⟨l, r, tr, pc, ht, hf⟩ := restore_eq_some h
  cases pc <;> simp only [Option.some.injEq, reduceCtorEq] at hf
  subst hf
  rfl

/-- **The secrets are wiped exactly when every restore that fails finds none.**  In all states of a
run a resting account holds neither password nor code if and only if the run takes the failure exits
of restores only while none is stored. -/
theorem secrets_wiped_iff {as : List Act} {s : Sys}
    (h : accountMachine.Path Machine.anyStep accountMachine.init as s) :
    (∀ bs t, bs <+: as → accountMachine.Path Machine.anyStep accountMachine.init bs t →
      SecretsWiped t) ↔ accountMachine.Path FailureQuiet accountMachine.init as s := by
  constructor
  · intro hall
    refine h.restrict fun bs act cs u v has hst hv => ?_
    cases act with
    | restoreFail t =>
      have hpre : bs ++ [Act.restoreFail t] <+: as := ⟨cs, by rw [has]; simp⟩
      have hwiped := hall _ v hpre hv
      have hacct := step_restoreFail hst
      have hsecrets := hwiped (.inl (by rw [hacct]; rfl))
      rw [hacct] at hsecrets
      exact hsecrets
    | _ => trivial
  · rintro hquiet bs t ⟨cs, rfl⟩ ht
    obtain ⟨u, hu, -⟩ := hquiet.split
    obtain rfl := hu.unique ht
    exact hu.preserves (fun _ _ _ hG hst hw => hw.step hG hst) .init

/-- A restore that fails before anything else happens. -/
def failedRestore : List Act :=
  [.restoreCall 1 1, .restoreTryLock 0, .restoreChecks 0 true, .restoreGate 0,
   .restoreReqCtx 0 false, .restoreFail 0]

theorem secrets_wiped_iff_failedRestore :
    ∃ s, accountMachine.Path Machine.anyStep accountMachine.init failedRestore s ∧
      SecretsWiped s := by
  obtain ⟨s, hs⟩ : ∃ s, accountMachine.exec FailureQuiet accountMachine.init failedRestore =
      some s := ⟨_, rfl⟩
  have hany : accountMachine.Path Machine.anyStep accountMachine.init failedRestore s :=
    (Machine.path_of_exec hs).restrict fun _ _ _ _ _ _ _ _ => trivial
  exact ⟨s, hany, (secrets_wiped_iff hany).mpr (Machine.path_of_exec hs) _ s List.prefix_rfl hany⟩

/-- A restore that fails after `logout` and a new login. -/
def restoreOverLogin : List Act :=
  [.restoreCall 1 1, .restoreTryLock 0, .restoreChecks 0 true, .restoreGate 0, .logoutCall,
   .logoutDetach 1, .logoutReset 1, .startLogin 1 1 "new@example.com" "secret",
   .restoreReqCtx 0 false, .restoreFail 0]

/-- The logged-out account keeps the new login's password. -/
theorem secrets_wiped_fails :
    ¬ ∀ s, accountMachine.Reach Machine.anyStep s → SecretsWiped s := by
  intro hall
  have hw := hall _ (Machine.reach_of_exec (l := restoreOverLogin) rfl)
  obtain ⟨hp, -⟩ := hw (.inl rfl)
  exact absurd hp (by decide)

end WrapperPaas
