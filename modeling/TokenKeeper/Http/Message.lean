import TokenKeeper.Http.Failure
import TokenKeeper.Http.Headers
import TokenKeeper.Url.Parse
/-!
# Requests and responses

What goes to a peer and what comes back. A response may break off; then its head is there and its
body is not.
-/
namespace TokenKeeper.Http

inductive Method where
  | get
  | post
deriving DecidableEq, Repr

def Method.name : Method → String
  | get => "GET"
  | post => "POST"

structure Request where
  method : Method
  url : Url
  headers : Headers
  body : Option String
deriving DecidableEq, Repr

def contentType : String := "content-type"

def authToken : String := "x-auth-token"

def location : String := "location"

namespace Request

def postJson (url : Url) (body : String) : Request :=
  ⟨.post, url, [⟨contentType, Text.Utf8.encode "application/json", false⟩], some body⟩

/-- The url as the peer sees it. -/
def target (r : Request) : String := r.url.withoutUser.withoutFragment.text

end Request

structure Response where
  status : Nat
  headers : Headers
  body : Bytes
  isComplete : Bool
deriving DecidableEq, Repr

namespace Response

/-- The text of the body, with replacements where it is not UTF-8. -/
def text (r : Response) : String := Text.Utf8.decodeLossy r.body

/-- Whether the status leads to another url. -/
def isRedirect (r : Response) : Bool := [301, 302, 303, 307, 308].contains r.status

/-- Whether the request that follows hands over the body once more. -/
def keepsBody (r : Response) : Bool := r.status == 307 || r.status == 308

end Response

/-- The request that a response to `r` leads to; none if the response is an answer. Unless the
body is to be kept, what follows is a plain request without one. -/
def Request.next? (r : Request) (answer : Response) : Option Request :=
  if !answer.isRedirect then none
  else
    ((answer.headers.first? location).bind Text.Utf8.decode?).bind fun target =>
      (r.url.join target).toOption.map fun url =>
        if answer.keepsBody then { r with url }
        else ⟨.get, url, r.headers.without contentType, none⟩

/-- The url of an address that requests can be sent to, without the user in it. -/
def readAddress (s : String) : Except Failure Url :=
  match Url.parse s with
  | .error _ => .error .unreadableUrl
  | .ok u => if u.isWeb then .ok u.withoutUser else .error (.foreignScheme u.withoutUser.text)

end TokenKeeper.Http
