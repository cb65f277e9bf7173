/-!
# The identity service's address

The base url of the identity service, as text: how it is brought to TLS and how the url of a
request is made from it. Neither reads the url, so both work on any text.
-/
namespace TokenKeeper

/-- A leading `http` that is not already `https` becomes `https`. -/
def secureScheme (url : String) : String :=
  match url.toList with
  | 'h' :: 't' :: 't' :: 'p' :: 's' :: _ => url
  | 'h' :: 't' :: 't' :: 'p' :: rest => String.ofList ('h' :: 't' :: 't' :: 'p' :: 's' :: rest)
  | _ => url

def dropTrailingSlashes (url : String) : String :=
  String.ofList (url.toList.reverse.dropWhile (· == '/')).reverse

/-- The base and the suffix with a single slash between them. -/
def joinUrl (base suffix : String) : String :=
  dropTrailingSlashes base ++ "/" ++ suffix

end TokenKeeper
