/-!
# Failed requests

Why a request got no complete response. A failure names the url it happened at, unless the url
itself could not be read or the response had already begun.
-/
namespace TokenKeeper.Http

/-- Why a request has no complete response. -/
inductive Failure where
  /-- The address is not a url. -/
  | unreadableUrl
  /-- The url's scheme is not one of the web. -/
  | foreignScheme (url : String)
  /-- No response arrived: no connection, no trust, no answer or no time. -/
  | unanswered (url : String)
  /-- The response ended before its declared length. -/
  | cutShort
  /-- The response at this url redirects once too often. -/
  | redirected (url : String)
deriving DecidableEq, Repr

def Failure.message : Failure → String
  | unreadableUrl => "builder error"
  | foreignScheme url => "builder error for url (" ++ url ++ ")"
  | unanswered url => "error sending request for url (" ++ url ++ ")"
  | cutShort => "error decoding response body"
  | redirected url => "error following redirect for url (" ++ url ++ ")"

end TokenKeeper.Http
