set_option autoImplicit false

namespace ExecCounts.Path

def isSeparator (c : Char) : Bool := c == '\\' || c == '/'

def isAbsoluteWindows (path : List Char) : Bool :=
  ['\\', '\\'].isPrefixOf path || ['/', '/'].isPrefixOf path ||
    match path with
    | letter :: colon :: rest => letter.isAlpha && colon == ':' && rest.head?.all isSeparator
    | _ => false

def isWindows (path : List Char) : Bool := isAbsoluteWindows path || path.contains '\\'

def isAbsolute (path : List Char) : Bool := path.head? == some '/' || isAbsoluteWindows path

def trimEnd (path : List Char) : List Char := (path.reverse.dropWhile isSeparator).reverse

/-- Resolves a path against a directory. An absolute path stays as it is, and so does every path if
the directory is empty; the empty path is the directory itself. -/
def join (base other : List Char) : List Char :=
  if base.isEmpty || isAbsolute other then other
  else if other.isEmpty then base
  else
    let separator := if isWindows base || isWindows other then '\\' else '/'
    trimEnd base ++ separator :: other.dropWhile isSeparator

end ExecCounts.Path

namespace ExecCounts

def isAbsolutePath (path : String) : Bool := Path.isAbsolute path.toList

def joinPath (base other : String) : String :=
  String.ofList (Path.join base.toList other.toList)

end ExecCounts
