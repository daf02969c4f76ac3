import Freelancing.Money.Payouts

/-!
# Payout provider accounts

`configure_payout_provider_account` and `disable_payout_provider_account` of
`app/payouts/provider_accounts.py`. The users are an argument, since nothing here writes them;
`validate` is the `validate_payout_destination` of the providers.
-/

namespace Money

namespace Db

/-- The account of a freelancer at a provider, active or not. -/
def payoutAccountOf? (d : Db) (freelancer : UserId) (provider : Provider) :
    Option PayoutProviderAccount :=
  d.payoutAccounts.find? fun a => a.freelancer = freelancer ∧ a.provider = provider

/-- The same account of the provider, assigned to another freelancer. -/
def conflictingPayoutAccount? (d : Db) (freelancer : UserId) (provider : Provider)
    (reference : String) : Option PayoutProviderAccount :=
  d.payoutAccounts.find? fun a =>
    a.provider = provider ∧ a.reference = reference ∧ a.freelancer ≠ freelancer

def addPayoutAccount (a : PayoutProviderAccount) (d : Db) : Db :=
  { d with payoutAccounts := a :: d.payoutAccounts }

def setPayoutAccount (freelancer : UserId) (provider : Provider)
    (f : PayoutProviderAccount → PayoutProviderAccount) (d : Db) : Db :=
  { d with
    payoutAccounts := d.payoutAccounts.map fun a =>
      if a.freelancer = freelancer ∧ a.provider = provider then f a else a }

end Db

def isFreelancer (users : List User) (id : UserId) : Bool :=
  (users.find? fun u => u.id = id).any fun u => u.roles.contains "freelancer"

/-- The flush of an account, under its unique constraints. -/
def flushPayoutAccount (account : PayoutProviderAccount) : Tx Unit :=
  reserve (.payoutAccountReference account.provider account.reference) fun d =>
    (d.conflictingPayoutAccount? account.freelancer account.provider account.reference).isSome

def configurePayoutProviderAccount (cfg : Config) (users : List User)
    (validate : Provider → String → Except Err String) (freelancer : UserId)
    (providerName externalAccountReference : String) : Tx PayoutProviderAccount := do
  require (isFreelancer users freelancer)
    (.api ⟨"freelancer_not_found", "Freelancer not found", 404,
      "Payout provider accounts can only be configured for freelancer users"⟩)
  let provider ← getProvider cfg providerName
  match validate provider (strip externalAccountReference) with
  | .error e => raise e
  | .ok verified =>
  match ← select (fun d => d.conflictingPayoutAccount? freelancer provider verified) with
  | some _ =>
    raiseApi "payout_destination_conflict" "Payout destination conflict" 409
      "This provider account is already assigned to another freelancer"
  | none =>
  match ← selectForUpdate (fun a => .payoutAccount a.freelancer a.provider) (fun d =>
      d.payoutAccountOf? freelancer provider) with
  | none =>
    let account : PayoutProviderAccount := ⟨freelancer, provider, verified, true⟩
    reserve (.payoutAccount freelancer provider) fun d =>
      (d.payoutAccountOf? freelancer provider).isSome
    flushPayoutAccount account
    write (Db.addPayoutAccount account)
    commit (.payoutAccountConfigured freelancer provider)
    pure account
  | some account =>
    let account := { account with reference := verified, active := true }
    flushPayoutAccount account
    write (Db.setPayoutAccount freelancer provider fun a =>
      { a with reference := verified, active := true })
    commit (.payoutAccountConfigured freelancer provider)
    pure account

def disablePayoutProviderAccount (freelancer : UserId) (providerName : String) :
    Tx PayoutProviderAccount := do
  let providerName := lower (strip providerName)
  match ← selectForUpdate (fun a => .payoutAccount a.freelancer a.provider) (fun d =>
      d.payoutAccountOf? freelancer providerName) with
  | none =>
    raiseApi "payout_provider_account_not_found" "Payout provider account not found" 404
      "Payout provider account was not found"
  | some account =>
    write (Db.setPayoutAccount freelancer providerName fun a => { a with active := false })
    commit (.payoutAccountDisabled freelancer providerName)
    pure { account with active := false }

end Money
