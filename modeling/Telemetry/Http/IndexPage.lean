import Telemetry.Metric

/-!
# The index page

A table of all metrics. Names are escaped, so that none of them can break out of its
cell.
-/

namespace Telemetry.Http.IndexPage

/-- What stands for a character in a page. -/
def escapeChar (c : Char) : List Char :=
  if c = '&' then "&amp;".toList
  else if c = '<' then "&lt;".toList
  else if c = '>' then "&gt;".toList
  else if c = '"' then "&quot;".toList
  else if c = '\'' then "&#39;".toList
  else [c]

def escape (s : String) : String := String.ofList (s.toList.flatMap escapeChar)

/-- What stands before the rows. -/
def header : String :=
  "<!DOCTYPE html>\n<html><head><meta charset=\"utf-8\"><title>PULSE</title></head><body>\n" ++
    "<table>\n<tr><th>name</th><th>type</th><th>value</th></tr>\n"

def footer : String := "</table>\n</body></html>\n"

def row (m : Metric) : String :=
  "<tr><td>" ++ escape m.name ++ "</td><td>" ++ m.kind.text ++ "</td><td>" ++ m.valueText ++
    "</td></tr>\n"

def page (ms : List Metric) : String := header ++ String.join (ms.map row) ++ footer

end Telemetry.Http.IndexPage
