import RecordCodec.Text.Quoted

/-!
This module contains templates: texts in which `%s` stands for an argument, `%q` for a quoted one and
`%%` for a percent sign.
-/

namespace RecordCodec.Text

def verb (v : Char) (arg : String) : String :=
  match v with
  | 's' | 'v' => arg
  | 'q' => quote arg
  | v => "%!" ++ v.toString ++ "(string=" ++ arg ++ ")"

def extraArguments : List String → String
  | [] => ""
  | args => "%!(EXTRA " ++ ", ".intercalate (args.map ("string=" ++ ·)) ++ ")"

def fill : List Char → List String → String
  | [], args => extraArguments args
  | ['%'], args => "%!(NOVERB)" ++ extraArguments args
  | '%' :: '%' :: cs, args => "%" ++ fill cs args
  | '%' :: v :: cs, [] => "%!" ++ v.toString ++ "(MISSING)" ++ fill cs []
  | '%' :: v :: cs, arg :: args => verb v arg ++ fill cs args
  | c :: cs, args => c.toString ++ fill cs args

def template (format : String) (args : List String) : String :=
  if args.isEmpty then format else fill format.toList args

end RecordCodec.Text
