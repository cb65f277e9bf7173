import TokenKeeper.Auth.Error
import TokenKeeper.Token.Basic
/-!
# The renewal rule

A token is renewed once the clock is strictly past the middle of its life. Without a token there
is always one to be obtained.
-/
namespace TokenKeeper

def readTime (value : String) : Except AuthError Time.Instant :=
  (Time.Rfc3339.parse value).mapError (AuthError.timeParse value)

/-- The middle of the time from `issuedAt` to `expiresAt`. -/
def renewalDeadline (issuedAt expiresAt : String) : Except AuthError Time.Instant := do
  let issued ← readTime issuedAt
  let expires ← readTime expiresAt
  return issued.midpoint expires

def Token.deadline (t : Token) : Except AuthError Time.Instant :=
  renewalDeadline t.issuedAt t.expiresAt

/-- Whether a token has to be obtained at the time `now`. -/
def TokenCache.needsRenewal (cache : TokenCache) (now : Time.Instant) : Except AuthError Bool :=
  match cache with
  | none => .ok true
  | some c => c.token.deadline.map now.after

end TokenKeeper
