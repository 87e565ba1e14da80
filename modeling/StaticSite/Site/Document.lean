import StaticSite.Number.Basic
import StaticSite.Text.Span

/-!
# Documents

A document is the shell below with three things put into it: style rules before the end of the head,
the rendered page at the start of the body, and a script at its end. The reload client is such a
script; it connects to the port from which reload messages come.
-/

namespace StaticSite.Document

open Text

/-- The shell around every page. -/
def shell : String :=
  "<!DOCTYPE html>\n<html>\n<head>\n<meta charset=\"utf-8\">\n" ++
  "<meta name=\"viewport\" content=\"width=device-width, initial-scale=1\">\n" ++
  "</head>\n<body>\n</body>\n</html>\n"

/-- What stands for the port in the reload client. -/
def portMark : String := "__RELOAD_PORT__"

/-- The reload client for any port. -/
def reloadClient : String :=
  "(function () \x7b\n" ++
  "  var url = \"ws://\" + location.hostname + \":__RELOAD_PORT__\";\n" ++
  "  function connect() \x7b\n" ++
  "    var socket = new WebSocket(url);\n" ++
  "    socket.onmessage = function (event) \x7b\n" ++
  "      if (event.data === \"reload\") \x7b\n" ++
  "        location.reload();\n" ++
  "      \x7d\n" ++
  "    \x7d;\n" ++
  "    socket.onclose = function () \x7b\n" ++
  "      setTimeout(connect, 1000);\n" ++
  "    \x7d;\n" ++
  "  \x7d\n" ++
  "  connect();\n" ++
  "\x7d)();\n"

/-- The reload client for a port. -/
def reloadScript (port : Nat) : String :=
  String.ofList (replaceAll portMark.toList (Number.intText port) reloadClient.toList)

/-- A text split around the first occurrence of a mark; without one, all of it stands in front. -/
def splitAround (mark text : String) : String × String :=
  match cut? mark.toList text.toList with
  | some (before, rest) => (String.ofList before, String.ofList rest)
  | none => (text, "")

/-- The document of a rendered page. Empty style rules leave no element behind. -/
def assemble (styles body : String) (script? : Option String) : String :=
  let (head, rest) := splitAround "</head>" shell
  let (between, rest) := splitAround "<body>" rest
  let (inside, tail) := splitAround "</body>" rest
  let style := if styles = "" then "" else "<style>" ++ styles ++ "</style>\n"
  let script := match script? with
    | some s => "<script>" ++ s ++ "</script>\n"
    | none => ""
  head ++ style ++ "</head>" ++ between ++ "<body>" ++ body ++ inside ++ script ++ "</body>" ++ tail

end StaticSite.Document
