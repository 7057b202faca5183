namespace ObjectBridge.Path

-- The path from its end, without slashes and single points that mean nothing there.
private def trimReversed : List Char → List Char
  | ['/'] => ['/']
  | '/' :: rest => trimReversed rest
  | '.' :: '/' :: rest => trimReversed ('/' :: rest)
  | cs => cs

private def trimmed (path : String) : List Char := trimReversed path.toList.reverse

-- Splits off the last part; both sides from their ends.
private def lastPart (reversed : List Char) : List Char × List Char :=
  (reversed.takeWhile (· ≠ '/'), reversed.dropWhile (· ≠ '/'))

def fileName? (path : String) : Option String :=
  match (lastPart (trimmed path)).1 with
  | [] | ['.'] | ['.', '.'] => none
  | name => some (String.ofList name.reverse)

def parent? (path : String) : Option String :=
  match trimmed path with
  | [] | ['/'] => none
  | reversed => some (String.ofList (trimReversed (lastPart reversed).2).reverse)

def isAbsolute (path : String) : Bool := path.startsWith "/"

-- An absolute name stands for itself.
def join (directory name : String) : String :=
  if isAbsolute name then name
  else if directory.isEmpty || directory.endsWith "/" then directory ++ name
  else directory ++ "/" ++ name

-- An absolute path and the directories above it, nearest first.
def ancestors (path : String) : List String :=
  let parts := (path.splitOn "/").filter (!·.isEmpty)
  (List.range (parts.length + 1)).reverse.map fun n => "/" ++ "/".intercalate (parts.take n)

end ObjectBridge.Path
