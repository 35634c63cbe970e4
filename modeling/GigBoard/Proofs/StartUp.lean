import GigBoard.Proofs.Integers
import GigBoard.Proofs.Lifetimes
import GigBoard.Proofs.Wallets

/-!
# Which settings can be used

A lifetime in minutes may be any signed number of 64 bits.  Some of them cannot be counted out in
seconds, so the server does not start; with others a token would expire off the calendar.  Both faults
end a command in the middle of its work.
-/

set_option autoImplicit false

namespace GigBoard

structure Timestamp.InUse (t : Timestamp) : Prop where
  since : 0 ≤ t.seconds
  before : t.seconds < 7289654400

/-! ## Accepted settings -/

/-- A lifetime that was accepted is a signed number of 64 bits. -/
theorem Settings.expiryMinutes_of_ofEnvironment {env : Environment} {settings : Settings}
    (accepted : ofEnvironment env = .ok settings) :
    Text.IntegerRange.int64.contains settings.expiryMinutes = true := by
  obtain ⟨_, _, accepted⟩ := bind_ok accepted
  obtain ⟨_, _, accepted⟩ := bind_ok accepted
  obtain ⟨_, _, accepted⟩ := bind_ok accepted
  obtain ⟨expiry, isExpiry, accepted⟩ := bind_ok accepted
  cases accepted
  cases read : Text.readInteger .int64 ((env.get? "JWT_EXPIRY_MINUTES").getD "60").toList with
  | error fault =>
      rw [read] at isExpiry
      cases isExpiry
  | ok n =>
      rw [read] at isExpiry
      cases isExpiry
      exact ((Text.readInteger_eq_ok_iff (by decide) (by decide)).mp read).2

def lifetimeVariables (minutes : String) : Environment :=
  [("DATABASE_URL", "postgres://localhost/gigs"), ("JWT_SECRET", "secret"),
    ("JWT_EXPIRY_MINUTES", minutes)]

theorem Settings.ofEnvironment_lifetimeVariables {minutes : String} {n : Int}
    (read : Text.readInteger .int64 minutes.toList = .ok n) :
    ofEnvironment (lifetimeVariables minutes) = .ok (Token.Service.settingsFor n) := by
  simp only [ofEnvironment, required, Environment.get?, lifetimeVariables, decide_true,
    List.find?_cons_of_pos, Option.map_some, String.reduceEq, decide_false, Bool.false_eq_true,
    not_false_eq_true, List.find?_cons_of_neg, List.find?_nil, Option.map_none, Option.getD_none,
    Option.getD_some, read]
  rfl

/-- Every lifetime of 64 bits is accepted, and no other one. -/
theorem Settings.accepts_iff {minutes : Int} : Text.IntegerRange.int64.contains minutes = true ↔
    ∃ env settings, ofEnvironment env = .ok settings ∧ settings.expiryMinutes = minutes := by
  constructor
  · intro within
    have read := Text.readInteger_integerText (by decide) (by decide) within
    rw [← String.toList_ofList (l := DecimalStyle.integerText minutes)] at read
    exact ⟨_, _, ofEnvironment_lifetimeVariables read, rfl⟩
  · rintro ⟨env, settings, accepted, rfl⟩
    exact expiryMinutes_of_ofEnvironment accepted

namespace Token.Service

variable {settings : Settings} {now : Timestamp} {who : Identity}

/-- Whether a service of some settings mints a token for somebody now. -/
def Mints (settings : Settings) (now : Timestamp) (who : Identity) : Prop :=
  ∃ service token, ofSettings settings = .ok service ∧ service.mint now who = .ok token

/-- It is the calendar that decides, not the bearer. -/
theorem mints_iff (present : now.isRepresentable = true) : Mints settings now who ↔
    (settings.expiryAt now).isRepresentable = true := by
  rw [← expiry_minterOf]
  constructor
  · rintro ⟨service, token, usable, minted⟩
    obtain ⟨_, rfl⟩ := ofSettings_eq_ok_iff.mp usable
    exact (mint_eq_ok_iff.mp minted).1
  · intro ends
    exact ⟨_, _, ofSettings_of_representable present (expiry_minterOf settings now ▸ ends),
      mint_of_representable who ends⟩

theorem ofSettings_usable_iff : (∃ service, ofSettings settings = .ok service) ↔
    -longestLifetime ≤ 60 * settings.expiryMinutes ∧
      60 * settings.expiryMinutes ≤ longestLifetime := by
  constructor
  · rintro ⟨service, isService⟩
    exact (ofSettings_eq_ok_iff.mp isService).1
  · intro within
    exact ⟨minterOf settings, ofSettings_eq_ok_iff.mpr ⟨within, rfl⟩⟩

theorem ofSettings_of_unusable (unusable : ¬∃ service, ofSettings settings = .ok service) :
    ofSettings settings = .error .tooLong := by
  rw [ofSettings_usable_iff] at unusable
  rw [ofSettings, lifetimeOfMinutes, if_neg unusable]
  rfl

end Token.Service

namespace Maintenance

open Token.Service (Mints bearer settingsFor)

variable {env : Environment} {settings : Settings} {now : Timestamp} {tables : Option Store}
  {wallet : String} {user : Account.User}

/-! ## Commands that are abandoned -/

def holder (user : Account.User) : Token.Identity :=
  ⟨user.id, user.walletAddress, Named.name user.role⟩

theorem mintFor_abandoned_iff :
    (mintFor settings now user).code = 101 ↔ ¬Mints settings now (holder user) := by
  rw [mintFor]
  split
  · rename_i refused
    have never : ¬Mints settings now (holder user) := by
      rintro ⟨_, _, usable, _⟩
      rw [refused] at usable
      cases usable
    exact iff_of_true rfl never
  · rename_i service isService
    split
    · rename_i refused
      have never : ¬Mints settings now (holder user) := by
        rintro ⟨_, _, usable, minted⟩
        rw [isService] at usable
        cases usable
        rw [holder, refused] at minted
        cases minted
      exact iff_of_true rfl never
    · rename_i token minted
      have mints : Mints settings now (holder user) := ⟨service, token, isService, minted⟩
      exact iff_of_false (by simp [Report.success]) (not_not_intro mints)

theorem issueToken_abandoned_iff : (issueToken settings now wallet tables).code = 101 ↔
    ∃ store user, tables = some store ∧
      Store.userByWallet? (Account.normalWallet wallet) store = .ok (some user) ∧
      ¬Mints settings now (holder user) := by
  unfold issueToken
  cases tables with
  | none => simp [Report.failureWithCause, Report.failure]
  | some store =>
      cases found : Store.userByWallet? (Account.normalWallet wallet) store with
      | error fault => simp [found, Report.failureWithCause, Report.failure]
      | ok user? =>
          cases user? with
          | none => simp [found, Report.failure]
          | some user => simp [found, mintFor_abandoned_iff]

/-- The server is abandoned for its lifetime exactly if that cannot be counted out. -/
theorem startFailure?_eq_tooLong_iff (accepted : Settings.ofEnvironment env = .ok settings) :
    startFailure? env = some (.abandoned Token.LifetimeFault.tooLong.message) ↔
      ¬∃ service, Token.Service.ofSettings settings = .ok service := by
  unfold startFailure?
  rw [accepted]
  constructor
  · rintro abandoned ⟨service, isService⟩
    simp only [isService] at abandoned
    -- A wildcard among the origins is a reason of its own, with another message.
    split at abandoned
    · cases abandoned
    · split at abandoned
      · simp [Report.abandoned, Http.Origins.WildcardFault.message,
          Token.LifetimeFault.message] at abandoned
      · cases abandoned
  · intro unusable
    simp only [Token.Service.ofSettings_of_unusable unusable]

/-! ## The years in which settings are used -/

/-- A time of these years can be represented. -/
theorem representable_of_inUse (timely : now.InUse) : now.isRepresentable = true := by
  obtain ⟨since, before⟩ := timely
  simp only [Timestamp.seconds] at since before
  rw [Timestamp.isRepresentable_iff]
  omega

/-- A lifetime can be used in all of these years if it can be used in their first and in their last
microsecond. -/
theorem expiryAt_representable_iff :
    (∀ now : Timestamp, now.InUse → (settings.expiryAt now).isRepresentable = true) ↔
      -138910020480 ≤ settings.expiryMinutes ∧ settings.expiryMinutes ≤ 136716287040 := by
  simp only [Timestamp.isRepresentable_iff, Settings.micros_expiryAt]
  constructor
  · intro always
    obtain ⟨low, _⟩ := always ⟨0⟩ ⟨by decide, by decide⟩
    obtain ⟨_, high⟩ := always ⟨7289654399999999⟩ ⟨by decide, by decide⟩
    dsimp only at low high
    omega
  · rintro short now ⟨since, before⟩
    simp only [Timestamp.seconds] at since before
    omega

/-! ## What becomes of accepted settings -/

/-- What becomes of settings that are accepted, which may have any lifetime of 64 bits.  The server is
abandoned if the lifetime cannot be counted out.  From 1970 to 2200 a token is minted, for anybody,
exactly if its expiry lies on the calendar, and the operator's command is abandoned exactly if it does
not and somebody has the wallet.  At the end are the lifetimes that can be used in all of these years. -/
theorem accepted_settings_usable (env : Environment) (settings : Settings)
    (accepted : Settings.ofEnvironment env = .ok settings) :
    Text.IntegerRange.int64.contains settings.expiryMinutes = true ∧
    ((∃ service, Token.Service.ofSettings settings = .ok service) ↔
      -Token.longestLifetime ≤ 60 * settings.expiryMinutes ∧
        60 * settings.expiryMinutes ≤ Token.longestLifetime) ∧
    (startFailure? env = some (.abandoned Token.LifetimeFault.tooLong.message) ↔
      ¬∃ service, Token.Service.ofSettings settings = .ok service) ∧
    (∀ now : Timestamp, now.InUse →
      (∀ who, Mints settings now who ↔ (settings.expiryAt now).isRepresentable = true) ∧
      ∀ wallet rest tables,
        (run ("issue-token" :: wallet :: rest) env now tables).1.code = 101 ↔
          (settings.expiryAt now).isRepresentable = false ∧ ∃ store user, tables = some store ∧
            Store.userByWallet? (Account.normalWallet wallet) store = .ok (some user)) ∧
    ((∀ now : Timestamp, now.InUse → ∀ who, Mints settings now who) ↔
      -138910020480 ≤ settings.expiryMinutes ∧ settings.expiryMinutes ≤ 136716287040) := by
  have mints (now : Timestamp) (timely : now.InUse) (who : Token.Identity) :
      Mints settings now who ↔ (settings.expiryAt now).isRepresentable = true :=
    Token.Service.mints_iff (representable_of_inUse timely)
  refine ⟨Settings.accepts_iff.mpr ⟨env, settings, accepted, rfl⟩,
    Token.Service.ofSettings_usable_iff, startFailure?_eq_tooLong_iff accepted,
    fun now timely => ⟨mints now timely, fun wallet rest tables => ?_⟩, ?_⟩
  · rw [run_issueToken accepted, issueToken_abandoned_iff]
    simp only [mints now timely, Bool.not_eq_true]
    constructor
    · rintro ⟨store, user, isStore, found, untold⟩
      exact ⟨untold, store, user, isStore, found⟩
    · rintro ⟨untold, store, user, isStore, found⟩
      exact ⟨store, user, isStore, found, untold⟩
  · rw [← expiryAt_representable_iff]
    exact ⟨fun usable now timely => (mints now timely bearer).mp (usable now timely bearer),
      fun told now timely who => (mints now timely who).mpr (told now timely)⟩

/-- With 153722867280913 minutes the server is abandoned.  With 136716287041 it starts, and in the last
second of the year 2200 no token is minted. -/
theorem accepted_settings_usable_too_long :
    (Settings.ofEnvironment (lifetimeVariables "153722867280913") =
        .ok (settingsFor 153722867280913) ∧
      startFailure? (lifetimeVariables "153722867280913") =
        some (.abandoned "TimeDelta::minutes out of bounds")) ∧
    Settings.ofEnvironment (lifetimeVariables "136716287041") = .ok (settingsFor 136716287041) ∧
      startFailure? (lifetimeVariables "136716287041") = none ∧
        ∀ who, ¬Mints (settingsFor 136716287041) ⟨7289654399000000⟩ who := by
  have long := Settings.ofEnvironment_lifetimeVariables
    (show Text.readInteger .int64 "153722867280913".toList = .ok 153722867280913 by rfl)
  have shorter := Settings.ofEnvironment_lifetimeVariables
    (show Text.readInteger .int64 "136716287041".toList = .ok 136716287041 by rfl)
  obtain ⟨_, ranged, abandoned, _⟩ := accepted_settings_usable _ _ long
  obtain ⟨_, _, _, minted, _⟩ := accepted_settings_usable _ _ shorter
  have starts : startFailure? (lifetimeVariables "136716287041") = none := by decide +kernel
  refine ⟨⟨long, abandoned.mpr ?_⟩, shorter, starts, fun who => ?_⟩
  · rw [ranged]
    decide
  · rw [(minted ⟨7289654399000000⟩ ⟨by decide, by decide⟩).1 who]
    decide

end Maintenance

end GigBoard
