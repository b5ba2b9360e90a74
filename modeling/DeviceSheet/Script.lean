import DeviceSheet.Device

/-!
# The companion script

The script puts the class of every device on the body of a page, once the page is
there.  It has one line per device, in order, between two fixed parts.
-/

namespace DeviceSheet.Script

/-- The lines before the classes. -/
def opening : List Text :=
  ["(function () \x7b".toList,
    "  function tagBody() \x7b".toList,
    "    var classNames = [];".toList]

/-- The line for one device. -/
def push (name : Text) : Text :=
  "    classNames.push('".toList ++ deviceClass name ++ "');".toList

/-- The lines after the classes. -/
def closing : List Text :=
  ["    classNames.forEach(function (name) \x7b".toList,
    "      document.body.classList.add(name);".toList,
    "    \x7d);".toList,
    "  \x7d".toList,
    "  if (document.readyState === 'loading') \x7b".toList,
    "    document.addEventListener('DOMContentLoaded', tagBody);".toList,
    "  \x7d else \x7b".toList,
    "    tagBody();".toList,
    "  \x7d".toList,
    "\x7d)();".toList]

/-- The lines of the script for the named devices. -/
def lines (names : List Text) : List Text := opening ++ names.map push ++ closing

/-- The script for the named devices. -/
def render (names : List Text) : Text := (lines names).flatMap (· ++ ['\n'])

end DeviceSheet.Script
