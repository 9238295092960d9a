import Troupe.Text.Unprinted

/-!
# Quoted text

Identifiers, addresses and template arguments appear in diagnostics between double quotes
(`Address.inspect`, `Template.inspect`, `Message.inspect`), as the `Debug` form of a string has
them. `quoted s` writes them:

* quotes and backslashes take a backslash;
* tabs, returns, newlines and NUL have a letter of their own;
* a character without a glyph (`isUnprinted`) is spelt by its number in hexadecimal, between braces
  (`escape`, `hex`);
* every other character stands for itself, the single quote included.
-/

namespace Troupe.Text

/-- Lower-case hexadecimal digits of `n`, without padding. -/
def hex (n : Nat) : List Char :=
  Nat.toDigits 16 n

/-- How one character stands inside a quoted text (`isUnprinted`). -/
def escape (c : Char) : List Char :=
  if c = '"' || c = '\\' then ['\\', c]
  else if c = '\n' then ['\\', 'n']
  else if c = '\t' then ['\\', 't']
  else if c = '\r' then ['\\', 'r']
  else if c = '\x00' then ['\\', '0']
  else if isUnprinted c then ['\\', 'u', '\x7b'] ++ hex c.toNat ++ ['\x7d']
  else [c]

/-- A text between double quotes, as diagnostics show it (`escape`). -/
def quoted (s : String) : String :=
  String.ofList ('"' :: s.toList.flatMap escape ++ ['"'])

example : quoted "a\"b\n" = "\"a\\\"b\\n\"" := by decide +kernel
example : quoted "\x7f" = "\"\\u\x7b7f\x7d\"" := by decide +kernel

end Troupe.Text
