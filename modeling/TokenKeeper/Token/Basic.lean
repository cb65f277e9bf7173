import TokenKeeper.Config.Basic
/-!
# Tokens

A token as the identity service issued it, its times unread, and the one place where a client
keeps it.
-/
namespace TokenKeeper

/-- An issued token; the times are the texts of the response. -/
structure Token where
  id : String
  issuedAt : String
  expiresAt : String
deriving DecidableEq, Repr

/-- A token together with the protocol it was obtained by. -/
structure CachedToken where
  token : Token
  protocol : Protocol
deriving DecidableEq, Repr

/-- What a client keeps: one token or none. -/
abbrev TokenCache := Option CachedToken

end TokenKeeper
