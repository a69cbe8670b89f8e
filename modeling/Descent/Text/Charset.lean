import Descent.Text.Basic

/-! Sets of characters that grammars use. -/

namespace Descent.Charset

def blank : Text := " \t"

def whitespace : Text := " \t\n\x0d\x0c"

def binary : Text := "01"

def octal : Text := "01234567"

def decimal : Text := "0123456789"

def hexadecimal : Text := Text.concat [decimal, "abcdefABCDEF"]

def lowercase : Text := "abcdefghijklmnopqrstuvwxyz"

def uppercase : Text := lowercase.map CodePoint.asciiUpper

def alphabetic : Text := lowercase ++ uppercase

def alphanumeric : Text := alphabetic ++ decimal

end Descent.Charset
