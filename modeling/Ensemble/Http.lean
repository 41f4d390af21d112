import Ensemble.Text.Utf8

/-!
# Requests over the network

A network answers a request with a response, or fails with a text that says why. Which network
there is, is up to the world.
-/

namespace Ensemble.Http

structure Request where
  url : String
  headers : List (String × String)
  body : String

inductive Ending where
  | complete
  | broken (message : String)
  /-- Nothing comes any more, and nobody says so. -/
  | silent

structure Response where
  status : Nat
  chunks : List (List UInt8)
  ending : Ending := .complete

abbrev Network (σ : Type) := Request → σ → Except String Response × σ

def Network.unreachable {σ : Type} : Network σ := fun request world =>
  (.error s!"error sending request for url ({request.url})", world)

def isSuccess (status : Nat) : Bool := 200 ≤ status && status < 300

def reasons : List (Nat × String) := [
  (100, "Continue"), (101, "Switching Protocols"), (102, "Processing"), (200, "OK"),
  (201, "Created"), (202, "Accepted"), (203, "Non Authoritative Information"),
  (204, "No Content"), (205, "Reset Content"), (206, "Partial Content"), (207, "Multi-Status"),
  (208, "Already Reported"), (226, "IM Used"), (300, "Multiple Choices"),
  (301, "Moved Permanently"), (302, "Found"), (303, "See Other"), (304, "Not Modified"),
  (305, "Use Proxy"), (307, "Temporary Redirect"), (308, "Permanent Redirect"),
  (400, "Bad Request"), (401, "Unauthorized"), (402, "Payment Required"), (403, "Forbidden"),
  (404, "Not Found"), (405, "Method Not Allowed"), (406, "Not Acceptable"),
  (407, "Proxy Authentication Required"), (408, "Request Timeout"), (409, "Conflict"),
  (410, "Gone"), (411, "Length Required"), (412, "Precondition Failed"),
  (413, "Payload Too Large"), (414, "URI Too Long"), (415, "Unsupported Media Type"),
  (416, "Range Not Satisfiable"), (417, "Expectation Failed"), (418, "I'm a teapot"),
  (421, "Misdirected Request"), (422, "Unprocessable Entity"), (423, "Locked"),
  (424, "Failed Dependency"), (425, "Too Early"), (426, "Upgrade Required"),
  (428, "Precondition Required"), (429, "Too Many Requests"),
  (431, "Request Header Fields Too Large"), (451, "Unavailable For Legal Reasons"),
  (500, "Internal Server Error"), (501, "Not Implemented"), (502, "Bad Gateway"),
  (503, "Service Unavailable"), (504, "Gateway Timeout"), (505, "HTTP Version Not Supported"),
  (506, "Variant Also Negotiates"), (507, "Insufficient Storage"), (508, "Loop Detected"),
  (510, "Not Extended"), (511, "Network Authentication Required")]

def statusText (status : Nat) : String :=
  s!"{status} " ++ (reasons.lookup status).getD "<unknown status code>"

/-- The body as text. A body that was cut short counts as empty, as does that of a status that has
none. -/
def Response.text (r : Response) : String :=
  if r.status = 304 then ""
  else
    match r.ending with
    | .complete => Text.Utf8.decodeLossy r.chunks.flatten
    | _ => ""

end Ensemble.Http
