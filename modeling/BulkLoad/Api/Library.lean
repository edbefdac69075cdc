import BulkLoad.Api.Endpoint

/-!
# What a client leaves to others

How the text of a URL is read is the matter of a library, and so are the addresses of proxies and
the words for an answer that does not say what it should. A client takes all of it from outside
(`Library`), and what is proved of a client holds whichever library it is given.
-/

namespace BulkLoad.Api

/-- Where a service is. -/
structure Url where
  scheme : String
  host : Option String
  /-- The port, unless it is the one that the scheme implies. -/
  port : Option Nat
deriving DecidableEq, Repr

/-- What a client leaves to others. -/
structure Library where
  /-- What a text says as a URL, or why it is none. -/
  readUrl : String → Except String Url
  /-- Why a text is not the address of a proxy, unless it is one. -/
  proxyFault? : String → Option String
  /-- What is said of the answer of an endpoint when its body cannot be read. -/
  bodyFault : Endpoint → List UInt8 → String

end BulkLoad.Api
