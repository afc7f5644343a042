/-!
# The configuration file to start from

What `config init` writes: the common settings with their defaults, and all others in comments.
-/

namespace MakeLint.FileConfig

def template : String :=
  "# .makelrc - makel configuration file

# Maximum line length in display columns
max_line_length = 120

# Report lines that contain only white space
only_empty_blank_lines = true

# Preferred macro bracket style: inconsistent, round or curly
# macro_bracket_style = \"round\"

# Output options
# verbose = false
# color = \"auto\"
# json = false

# Recursive mode defaults
# recursive = false
# glob = \"makefile,Makefile,*.mk\"
# gitignore = true
# max_depth = 0

# Action per warning class: ignore, inform, style or warn
[warnings]
# long-line = \"ignore\"
# nonempty-blank = \"inform\"
"

end MakeLint.FileConfig
