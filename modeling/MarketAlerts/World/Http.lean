import MarketAlerts.Json.Decode
import MarketAlerts.Json.Reader

/-!
# Requests over HTTP

A request as it is sent, and what can come back: a reply, or a reason why there is none.
-/

namespace MarketAlerts.Http

/-- What a request asks for. -/
inductive Method where
  /-- The resource. -/
  | get
  /-- The resource without its body. -/
  | head
  /-- To take the body. -/
  | post
deriving DecidableEq

/-- A request. -/
structure Request where
  /-- What it asks for. -/
  method : Method
  /-- Where it goes. -/
  url : String
  /-- The key that it shows, if any. -/
  bearer : Option String := none
  /-- The body, if any. -/
  body : Option Json := none

/-- A reply. -/
structure Reply where
  /-- The status. -/
  status : Nat
  /-- The body. -/
  body : String

/-- What comes back for a request. -/
inductive Answer where
  /-- A reply. -/
  | reply (r : Reply)
  /-- Nothing, for a reason. -/
  | unreachable (reason : String)

/-- Whether the status tells of success. -/
def Reply.isSuccess (r : Reply) : Bool := 200 ≤ r.status && r.status < 300

/-- What the statuses mean. -/
def reasons : List (Nat × String) := [
  (100, "Continue"), (101, "Switching Protocols"), (102, "Processing"),
  (200, "OK"), (201, "Created"), (202, "Accepted"), (203, "Non Authoritative Information"),
  (204, "No Content"), (205, "Reset Content"), (206, "Partial Content"), (207, "Multi-Status"),
  (208, "Already Reported"), (226, "IM Used"),
  (300, "Multiple Choices"), (301, "Moved Permanently"), (302, "Found"), (303, "See Other"),
  (304, "Not Modified"), (305, "Use Proxy"), (307, "Temporary Redirect"),
  (308, "Permanent Redirect"),
  (400, "Bad Request"), (401, "Unauthorized"), (402, "Payment Required"), (403, "Forbidden"),
  (404, "Not Found"), (405, "Method Not Allowed"), (406, "Not Acceptable"),
  (407, "Proxy Authentication Required"), (408, "Request Timeout"), (409, "Conflict"),
  (410, "Gone"), (411, "Length Required"), (412, "Precondition Failed"),
  (413, "Payload Too Large"), (414, "URI Too Long"), (415, "Unsupported Media Type"),
  (416, "Range Not Satisfiable"), (417, "Expectation Failed"), (418, "I'm a teapot"),
  (421, "Misdirected Request"), (422, "Unprocessable Entity"), (423, "Locked"),
  (424, "Failed Dependency"), (426, "Upgrade Required"), (428, "Precondition Required"),
  (429, "Too Many Requests"), (431, "Request Header Fields Too Large"),
  (451, "Unavailable For Legal Reasons"),
  (500, "Internal Server Error"), (501, "Not Implemented"), (502, "Bad Gateway"),
  (503, "Service Unavailable"), (504, "Gateway Timeout"), (505, "HTTP Version Not Supported"),
  (506, "Variant Also Negotiates"), (507, "Insufficient Storage"), (508, "Loop Detected"),
  (510, "Not Extended"), (511, "Network Authentication Required")]

/-- The status as a text: its number and what it means. -/
def Reply.statusText (r : Reply) : String :=
  toString r.status ++ " " ++ (reasons.lookup r.status).getD "<unknown status code>"

/-- What a bot's server says to a request. -/
structure Acknowledgement where
  /-- Whether it was granted. -/
  ok : Bool
  /-- What it says beside that. -/
  description : Option String
deriving DecidableEq

/-- The acknowledgement in the body of a reply. -/
def Reply.acknowledgement? (r : Reply) : Option Acknowledgement := do
  let fields := ["ok", "description"]
  let record ← (← Json.parse? r.body (.record fields)).record? fields
  return {
    ok := ← record.field? "ok" Json.bool?
    description := ← record.fieldOr? "description" none (Json.orNull? Json.string?) }

end MarketAlerts.Http
