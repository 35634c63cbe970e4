import GigBoard.Proofs.Forgeries

/-!
# How long tokens last

Times are told in whole seconds without a sign.  A token whose expiry lies in 1970 or later is not
accepted any more when its lifetime and the leeway are over.  An expiry before 1970 wraps around to a
number that no clock reaches, so such a token is always accepted.
-/

set_option autoImplicit false

namespace GigBoard

theorem Timestamp.isRepresentable_iff {t : Timestamp} : t.isRepresentable = true ↔
    -8334601228800000000 ≤ t.micros ∧ t.micros ≤ 8210266876799999999 := by
  simp only [isRepresentable, Bool.and_eq_true, decide_eq_true_eq]

theorem Timestamp.seconds_of_isRepresentable {t : Timestamp} (told : t.isRepresentable = true) :
    -8334601228800 ≤ t.seconds ∧ t.seconds ≤ 8210266876799 := by
  rw [isRepresentable_iff] at told
  simp only [seconds]
  omega

def Settings.expiryAt (settings : Settings) (now : Timestamp) : Timestamp :=
  ⟨now.micros + 60000000 * settings.expiryMinutes⟩

theorem Settings.micros_expiryAt (settings : Settings) (now : Timestamp) :
    (settings.expiryAt now).micros = now.micros + 60000000 * settings.expiryMinutes := rfl

namespace Token

/-! ## Numbers of seconds -/

variable {n : Int}

theorem wrapped_of_natural (natural : 0 ≤ n) (small : n < 2 ^ 64) : (wrapped n : Int) = n := by
  rw [wrapped]
  omega

theorem wrapped_of_negative (negative : n < 0) (near : -2 ^ 64 ≤ n) :
    (wrapped n : Int) = n + 2 ^ 64 := by
  rw [wrapped]
  omega

theorem wrapped_lt (n : Int) : wrapped n < 2 ^ 64 := by
  rw [wrapped]
  omega

theorem lifetimeOfMinutes_eq_ok_iff {minutes lifetime : Int} :
    lifetimeOfMinutes minutes = .ok lifetime ↔
      (-longestLifetime ≤ 60 * minutes ∧ 60 * minutes ≤ longestLifetime) ∧
        lifetime = 60 * minutes := by
  rw [lifetimeOfMinutes]
  split
  · rename_i within
    simp [within, eq_comm]
  · rename_i beyond
    simp [beyond]

namespace Service

variable {service verifier : Service} {settings : Settings} {now : Timestamp} {who : Identity}
  {token : String} {c : Claims}

/-- The service of some settings if their lifetime can be counted out. -/
def minterOf (settings : Settings) : Service :=
  ⟨settings.secret, settings.issuer, settings.audience, 60 * settings.expiryMinutes⟩

theorem ofSettings_eq_ok_iff : ofSettings settings = .ok service ↔
    (-longestLifetime ≤ 60 * settings.expiryMinutes ∧
      60 * settings.expiryMinutes ≤ longestLifetime) ∧
    service = minterOf settings := by
  rw [ofSettings]
  constructor
  · intro made
    cases lasts : lifetimeOfMinutes settings.expiryMinutes with
    | error fault =>
        rw [lasts] at made
        cases made
    | ok lifetime =>
        obtain ⟨within, rfl⟩ := lifetimeOfMinutes_eq_ok_iff.mp lasts
        rw [lasts] at made
        cases made
        exact ⟨within, rfl⟩
  · rintro ⟨within, rfl⟩
    rw [lifetimeOfMinutes_eq_ok_iff.mpr ⟨within, rfl⟩]
    rfl

/-! ## Minting -/

def expiry (service : Service) (now : Timestamp) : Timestamp :=
  ⟨now.micros + 1000000 * service.lifetime⟩

theorem seconds_expiry (service : Service) (now : Timestamp) :
    (service.expiry now).seconds = now.seconds + service.lifetime := by
  simp only [expiry, Timestamp.seconds]
  omega

def statement (service : Service) (now : Timestamp) (who : Identity) : Claims where
  subject := who.userId
  wallet := who.walletAddress
  role := who.role
  issuer := service.issuer
  audience := service.audience
  issuedAt := wrapped now.seconds
  expiresAt := wrapped (now.seconds + service.lifetime)

theorem statement_fit (service : Service) (now : Timestamp) (who : Identity) :
    (service.statement now who).Fit :=
  ⟨wrapped_lt _, wrapped_lt _⟩

theorem claims_eq_ok_iff : service.claims now who = .ok c ↔
    (service.expiry now).isRepresentable = true ∧ c = service.statement now who := by
  have seconds := service.seconds_expiry now
  rw [expiry] at seconds
  simp only [claims, statement, expiry, ← seconds]
  split
  · rename_i told
    simp [told, eq_comm]
  · rename_i untold
    simp [untold]

theorem mint_eq_ok_iff : service.mint now who = .ok token ↔
    (service.expiry now).isRepresentable = true ∧
      token = String.ofList (service.sign (service.statement now who)) := by
  rw [mint]
  cases claimed : service.claims now who with
  | error fault =>
      have untold : (service.expiry now).isRepresentable ≠ true := by
        intro told
        rw [claims_eq_ok_iff.mpr ⟨told, rfl⟩] at claimed
        cases claimed
      simp [Except.map, untold]
  | ok c =>
      obtain ⟨told, rfl⟩ := claims_eq_ok_iff.mp claimed
      simp [Except.map, told, eq_comm]

theorem mint_of_representable (who : Identity)
    (told : (service.expiry now).isRepresentable = true) :
    service.mint now who = .ok (String.ofList (service.sign (service.statement now who))) :=
  mint_eq_ok_iff.mpr ⟨told, rfl⟩

/-- Only the secret counts in a signature. -/
theorem sign_eq (same : verifier.secret = service.secret) (c : Claims) :
    verifier.sign c = service.sign c := by
  simp only [sign, signature, same]

/-- A minted token is judged by what it says, by every service with the secret. -/
theorem verify_minted (minted : service.mint now who = .ok token)
    (same : verifier.secret = service.secret) (v : Timestamp) :
    verifier.verify v token.toList = verifier.checkClaims v (service.statement now who) := by
  obtain ⟨_, rfl⟩ := mint_eq_ok_iff.mp minted
  rw [String.toList_ofList, ← sign_eq same]
  exact verifier.verify_sign v (service.statement_fit now who)

theorem expiry_minterOf (settings : Settings) (now : Timestamp) :
    (minterOf settings).expiry now = settings.expiryAt now := by
  simp only [minterOf, expiry, Settings.expiryAt, Timestamp.mk.injEq]
  omega

/-- A lifetime that ends on the calendar is short enough to be counted out. -/
theorem ofSettings_of_representable (present : now.isRepresentable = true)
    (ends : (settings.expiryAt now).isRepresentable = true) :
    ofSettings settings = .ok (minterOf settings) := by
  rw [Timestamp.isRepresentable_iff] at present ends
  rw [Settings.micros_expiryAt] at ends
  rw [ofSettings_eq_ok_iff, longestLifetime]
  refine ⟨?_, rfl⟩
  omega

/-! ## The end of a token -/

/-- A token that was minted for a number of minutes is refused once they and the leeway are over, and
from the beginning if the number lies below minus one, unless its expiry lies before 1970.  There the
number of its seconds wraps around, and the token is accepted at every time. -/
theorem minted_tokens_expire (settings : Settings) (service : Service)
    (usable : ofSettings settings = .ok service) (who : Identity) (g : Timestamp) (token : String)
    (minted : service.mint g who = .ok token) :
    (0 ≤ g.seconds + 60 * settings.expiryMinutes →
      (∀ v : Timestamp, v.seconds < 2 ^ 64 →
        g.seconds + 60 * settings.expiryMinutes + 60 < v.seconds →
          service.verify v token.toList = .error .expiredSignature) ∧
      (settings.expiryMinutes ≤ -2 → ∀ v : Timestamp, v.seconds < 2 ^ 64 →
        g.seconds ≤ v.seconds → service.verify v token.toList = .error .expiredSignature)) ∧
    (g.seconds + 60 * settings.expiryMinutes < 0 → ∀ v : Timestamp, 0 ≤ v.seconds →
      v.seconds < 2 ^ 63 → service.verify v token.toList = .ok (service.statement g who)) := by
  obtain ⟨_, isService⟩ := ofSettings_eq_ok_iff.mp usable
  obtain ⟨told, _⟩ := mint_eq_ok_iff.mp minted
  have lifetime : service.lifetime = 60 * settings.expiryMinutes := by rw [isService, minterOf]
  have judged := verify_minted minted rfl
  refine ⟨fun natural => ?_, fun early v since counted => ?_⟩
  · have expired (v : Timestamp) (counted : v.seconds < 2 ^ 64)
        (late : g.seconds + 60 * settings.expiryMinutes + 60 < v.seconds) :
        service.verify v token.toList = .error .expiredSignature := by
      have clock := wrapped_of_natural (show 0 ≤ v.seconds by omega) counted
      have expiresAt := wrapped_of_natural natural (by omega)
      rw [judged v, checkClaims, if_pos]
      simp only [statement, leeway, lifetime]
      omega
    refine ⟨expired, fun short v counted later => expired v counted ?_⟩
    omega
  · have clock := wrapped_of_natural since (by omega)
    have seconds := service.seconds_expiry g
    have near := Timestamp.seconds_of_isRepresentable told
    have expiresAt := wrapped_of_negative early (by omega)
    rw [judged v, checkClaims_eq_ok_iff]
    refine ⟨rfl, ?_, rfl, rfl⟩
    simp only [statement, leeway, lifetime]
    omega

def settingsFor (minutes : Int) : Settings :=
  ⟨"postgres://localhost/gigs", 5, true, "127.0.0.1", 4000, "secret", "marketplace",
    "marketplace-clients", minutes, none⟩

def moment : Timestamp := ⟨1700000000000000⟩

def bearer : Identity := ⟨.ofNat 1, "0xabc", "CLIENT"⟩

/-- With minus three minutes a token is refused when it is minted.  With minus sixty millions, which lie
before 1970, it is accepted a hundred years later. -/
theorem minted_tokens_expire_before_epoch :
    ofSettings (settingsFor (-3)) = .ok (serviceFor (-180)) ∧
      ofSettings (settingsFor (-60000000)) = .ok (serviceFor (-3600000000)) ∧
      (∃ token, (serviceFor (-180)).mint moment bearer = .ok token ∧
        (serviceFor (-180)).verify moment token.toList = .error .expiredSignature) ∧
      ∃ token, (serviceFor (-3600000000)).mint moment bearer = .ok token ∧
        (serviceFor (-3600000000)).verify ⟨4855760000000000⟩ token.toList =
          .ok ((serviceFor (-3600000000)).statement moment bearer) := by
  have usable : ofSettings (settingsFor (-3)) = .ok (serviceFor (-180)) := rfl
  have usable' : ofSettings (settingsFor (-60000000)) = .ok (serviceFor (-3600000000)) := rfl
  have minted := mint_of_representable bearer
    (show ((serviceFor (-180)).expiry moment).isRepresentable = true by decide)
  have minted' := mint_of_representable bearer
    (show ((serviceFor (-3600000000)).expiry moment).isRepresentable = true by decide)
  obtain ⟨expires, _⟩ := minted_tokens_expire _ _ usable bearer moment _ minted
  obtain ⟨_, lasts⟩ := minted_tokens_expire _ _ usable' bearer moment _ minted'
  exact ⟨usable, usable', ⟨_, minted, (expires (by decide)).2 (by decide) _ (by decide) (by decide)⟩,
    ⟨_, minted', lasts (by decide) _ (by decide) (by decide)⟩⟩

end Service

end Token

end GigBoard
