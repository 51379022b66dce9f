import SourceIndex.Url.Address
import SourceIndex.Url.Domain
import SourceIndex.Url.Percent

/-!
# Hosts

A host is an address or a name. Where schemes have a standard port a host must not be empty, its
escapes are resolved, it is brought into the form of a domain name, and a name that ends in a
number has to be an address. Elsewhere a host stands for itself.
-/

namespace SourceIndex.Url.Host

/-- The characters that no host contains. -/
def forbidden (c : Char) : Bool :=
  ['\x00', '\t', '\n', '\r', ' ', '#', '/', ':', '<', '>', '?', '@', '[', '\\', ']', '^',
    '|'].contains c

/-- The characters that no domain name contains. -/
def forbiddenInName (c : Char) : Bool := forbidden c || c == '%' || c.toNat < 0x20 || c == '\x7F'

/-- The address in brackets. -/
def bracketed? (text : List Char) : Option (List Char) := do
  let inner ← Text.dropTrailing? [']'] text
  let words ← Address.readWords? inner
  return '[' :: Address.writeWords words ++ [']']

/-- The written form of a domain name or of an address of four bytes. -/
def name? (text : List Char) : Option (List Char) := do
  let decoded ← Utf8.decode? (Percent.decode text)
  let name ← Domain.written? decoded.toList
  if name.isEmpty || name.any forbiddenInName then none
  if Address.isNumeric name then (Address.readBytes? name).map Address.writeBytes
  else some name

/-- The written form of a host where schemes have a standard port. -/
def special? : List Char → Option (List Char)
  | '[' :: rest => bracketed? rest
  | text => name? text

/-- The written form of a host elsewhere. -/
def plain? : List Char → Option (List Char)
  | '[' :: rest => bracketed? rest
  | text => if text.any forbidden then none else some (Percent.encode Percent.control text)

end SourceIndex.Url.Host
