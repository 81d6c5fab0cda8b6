import CheckedPass.Expr.Basic
import CheckedPass.Text.Basic
/-!
# The text of expressions

Every node that is not a leaf is written in one pair of parentheses, its parts set apart by single
spaces.
-/

namespace CheckedPass

/-- Each name with the text of its value; what has no partner is left out. -/
def Expr.bindingTexts (vars vals : List String) : List String :=
  List.zipWith (fun x v => "(" ++ x ++ " " ++ v ++ ")") vars vals

mutual

def Expr.text : Expr → String
  | .var x => x
  | .lit a => a.text
  | .fn params body => "(fn (" ++ Text.join " " params ++ ") " ++ Expr.text body ++ ")"
  | .app op args => "(" ++ Text.join " " (op.mnemonic :: Expr.texts args) ++ ")"
  | .block items => "(" ++ Text.join " " ("block" :: Expr.texts items) ++ ")"
  | .cond test yes no =>
    "(if " ++ Expr.text test ++ " " ++ Expr.text yes ++ " " ++ Expr.text no ++ ")"
  | .bind vars vals body =>
    "(let (" ++ Text.join " " (Expr.bindingTexts vars (Expr.texts vals)) ++ ") " ++ Expr.text body
      ++ ")"

def Expr.texts : List Expr → List String
  | [] => []
  | e :: es => Expr.text e :: Expr.texts es

end

def Program.text (p : Program) : String :=
  "(program " ++ p.body.text ++ ")"

end CheckedPass
