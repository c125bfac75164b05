import ActionGraph.Script.Syntax
import ActionGraph.Script.Margin

/-!
The scripts that are understood. Each entry gives the text of a script, without its margin, and
either what it means or why it cannot be compiled. Every other text means a script that does
nothing and answers null.
-/

namespace ActionGraph.Script

def answers : List (String × List Statement) := [
  ("return input", [.answer .input]),
  ("def f():\n    return input\nreturn f()", [.answer .input]),
  ("return event", [.answer .event]),
  ("return input * 2", [.answer (.twice .input)]),
  ("return \x7b'ok': True, 'input': input\x7d",
    [.answer (.record [("ok", .literal (.bool true)), ("input", .input)])]),
  ("return [input, input]", [.answer (.list [.input, .input])]),
  ("return \x7b'cls': event['class'], 'x': event['x'], 'now': helpers.now()\x7d",
    [.answer (.record [("cls", .item .event (.text "class")), ("x", .item .event (.text "x")), ("now", .now)])]),
  ("return helpers.now()", [.answer .now]),
  ("return input['x']", [.answer (.item .input (.text "x"))]),
  ("return event['nope']", [.answer (.item .event (.text "nope"))]),
  ("return str(input)", [.answer (.textOf .input)]),
  ("if event is None:\n    raise ValueError('no event')\nreturn event['x']",
    [.check (.isNull .event) (.fail (.unsuitable "no event")), .answer (.item .event (.text "x"))]),
  ("if input:\n    return 'truthy'\nreturn 'falsy'",
    [.check (.holds .input) (.answer (.literal (.text "truthy"))), .answer (.literal (.text "falsy"))])]

def literals : List (String × Value) := [
  ("return float('nan')", .float Binary64.nan),
  ("return 10 ** 30", .int (Int.pow 10 30)),
  ("return 0.1 + 0.2", .float (0.1 + 0.2)),
  ("return (1, 'a', None)", .tuple [.int 1, .text "a", .null]),
  ("return True", .bool true),
  ("return ''", .text ""),
  ("return \x7b(1, 2): 'tuple key'\x7d", .dict [(.tuple [.int 1, .int 2], .text "tuple key")]),
  ("d = \x7b\x7d\nd['self'] = d\nreturn d", .dict [(.text "self", .enclosing)]),
  ("return \x7b'é': '🚀\\n\"'\x7d", .dict [(.text "é", .text "🚀\n\"")]),
  ("return \x7b1: 'a', None: 'b', True: 'c', 1.5: 'd'\x7d",
    .dict [(.int 1, .text "c"), (.null, .text "b"), (.float 1.5, .text "d")]),
  ("return [[], \x7b\x7d, [\x7b\x7d]]", .list [.list [], .dict [], .list [.dict []]]),
  ("return \x7b1, 1\x7d", .set [.int 1]),
  ("return b'x'", .bytes [0x78])]

def logging : List (String × List Statement) := [
  ("helpers.log('msg')", [.log (.text "msg") (.literal .null)]),
  ("helpers.log('msg', input)\nreturn 1", [.log (.text "msg") .input, .answer (.literal (.int 1))]),
  ("helpers.log(5, \x7b'a': 1\x7d)\nhelpers.log(None)\nreturn input",
    [.log (.int 5) (.literal (.record [("a", .int 1)])), .log .null (.literal .null), .answer .input]),
  ("helpers.log('a')\nreturn 'indented'",
    [.log (.text "a") (.literal .null), .answer (.literal (.text "indented"))])]

def failing : List (String × Fault) := [
  ("raise ValueError('bad input')", .unsuitable "bad input"),
  ("raise KeyError('k')", .missingKey (.text "k")),
  ("raise RuntimeError()", .failure ""),
  ("return 1 / 0", .divisionByZero),
  ("return missing", .undefinedName "missing"),
  ("helpers.nope()", .missingAttribute "types.SimpleNamespace" "nope")]

def broken : List (String × Fault) := [
  ("return ((", .malformed "'(' was never closed (<expression>, line 2)"),
  ("return 1 +", .malformed "invalid syntax (<expression>, line 2)"),
  ("x = 'unclosed", .malformed "unterminated string literal (detected at line 2) (<expression>, line 2)"),
  ("a = 1\n  b = 2", .misindented "unexpected indent (<expression>, line 3)")]

def library : List (String × Except Fault (List Statement)) :=
  answers.map (fun e => (e.1, .ok e.2))
    ++ literals.map (fun e => (e.1, .ok [.answer (.literal e.2)]))
    ++ logging.map (fun e => (e.1, .ok e.2))
    ++ failing.map (fun e => (e.1, .ok [.fail e.2]))
    ++ broken.map (fun e => (e.1, .error e.2))

def compile (code : String) : Except Fault (List Statement) :=
  (Keyed.get? (dedent code) library).getD (.ok [])

def evaluate : Evaluator := fun code input event =>
  match compile code with
  | .ok statements => exec input event statements
  | .error f => Run.fail f

end ActionGraph.Script
