import Floonet.Text

/-!
# Name and pubkey rules

Validity of names and keys, the reserved list, and the look-alike folding that
stops digit and separator homographs of reserved terms.
-/

namespace Floonet

open Text

/-- The built-in reserved names. -/
def reserved : List String :=
  ["admin", "administrator", "root", "support", "help", "info", "mail",
    "email", "www", "relay", "nostr", "pay", "payment", "payments", "wallet",
    "official", "security", "abuse", "postmaster", "hostmaster", "webmaster",
    "contact", "team", "staff", "mod", "moderator", "moderators", "system",
    "bot", "api", "app", "dev", "developer", "test", "testing", "anonymous",
    "anon", "null", "void", "owner", "ceo", "register", "registration",
    "account", "accounts", "verify", "verified", "billing", "donate",
    "treasury", "faucet", "exchange", "swap", "bank", "money", "cash", "fees",
    "fee", "node", "miner", "mining", "explorer", "status", "blog", "news",
    "docs", "wiki", "store", "shop"]

/-- What a name may begin and end with. -/
def isNameEnd (c : Char) : Bool :=
  isAsciiLowercase c || isDigit c

/-- Length bounds, ASCII lower-case alphanumerics plus `. _ -`, alphanumeric
at both ends.  The source indexes the first byte, so it is only called with
`nameMin` positive. -/
def validName (name : String) (nameMin nameMax : Nat) : Bool :=
  let chars := name.toList
  if chars.length < nameMin || nameMax < chars.length then false
  else if !chars.all fun c => isNameEnd c || c == '.' || c == '_' || c == '-'
  then false
  else
    match chars.head?, chars.getLast? with
    | some first, some last => isNameEnd first && isNameEnd last
    | _, _ => false

/-- The letter that a digit resembles; separators fold to nothing. -/
def foldLookalikeChar : Char → Option Char
  | '.' | '_' | '-' => none
  | '0' => some 'o'
  | '1' => some 'i'
  | '3' => some 'e'
  | '4' => some 'a'
  | '5' => some 's'
  | '7' => some 't'
  | '8' => some 'b'
  | '9' => some 'g'
  | c => some c

/-- The characters of the folded name. -/
def foldLookalike (name : String) : List Char :=
  name.toList.filterMap foldLookalikeChar

/-- `name` is reserved outright or folds onto a reserved term. -/
def isReserved (name : String) (extra : List String) : Bool :=
  if reserved.contains name || extra.contains name then true
  else
    let folded := foldLookalike name
    reserved.any (fun term => foldLookalike term == folded) ||
      extra.any fun term => foldLookalike term == folded

/-- The labels of the operator's domain except the last, lower-cased. -/
def domainReserved (tables : CaseTables) (domain : String) : List String :=
  let chars := (trim domain).toList
  let host := (chars.reverse.dropWhile (· == '.')).reverse
  let labels := (host.splitOn '.').filter fun label => !label.isEmpty
  let keep := if labels.length > 1 then labels.dropLast else labels
  keep.map fun label => tables.toLowercase (String.ofList label)

/-- Sixty-four lower-case hexadecimal digits. -/
def validPubkeyHex (pubkey : String) : Bool :=
  pubkey.toList.length == 64 &&
    pubkey.toList.all fun c => isHexDigit c && !isAsciiUppercase c

theorem validPubkeyHex_of_chars {pubkey : String} {chars : List Char}
    (isText : pubkey = String.ofList chars)
    (valid : (chars.length == 64 &&
      chars.all fun c => isHexDigit c && !isAsciiUppercase c) = true) :
    validPubkeyHex pubkey = true := by
  rw [validPubkeyHex, toList_eq isText]
  exact valid

end Floonet
