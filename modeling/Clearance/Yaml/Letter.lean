/-! The kinds of characters that markup tells apart. -/
namespace Clearance.Yaml

def isSpace (c : Char) : Bool := c = ' ' || c = '\t'

def isGap (c : Char) : Bool := isSpace c || c = '\n'

def isFlowMark (c : Char) : Bool := c ∈ [',', '[', ']', '\x7b', '\x7d']

/-- The characters of directives and of the handles of tags. -/
def isWordChar (c : Char) : Bool := c.isAlphanum || c = '_' || c = '-'

def isUriChar (c : Char) : Bool := isWordChar c || c ∈ "#;/?:@&=+$,.!~*'()[]%".toList

def isTagChar (c : Char) : Bool := isUriChar c && !isFlowMark c && c ≠ '!'

def isNameChar (c : Char) : Bool := !isGap c && !isFlowMark c && c ≠ '\uFEFF'

/-- Nothing of a word stands here. -/
def endsWord (cs : List Char) : Bool := cs.head?.all isGap

def startsFlowMark (cs : List Char) : Bool := cs.head?.any isFlowMark

end Clearance.Yaml
