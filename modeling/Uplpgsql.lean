import Uplpgsql.ControlFlow
import Uplpgsql.ExceptionFrames
import Uplpgsql.IntegerFor
import Uplpgsql.Assert
import Uplpgsql.ReturnValue
import Uplpgsql.Cache
import Uplpgsql.Expr.Fmgr
import Uplpgsql.Expr.NullTest
import Uplpgsql.Rows.ForCursor
import Uplpgsql.Arrays.Reads
import Uplpgsql.Expr.Bailout
import Uplpgsql.Expr.Condition
import Uplpgsql.Expr.Simple
import Uplpgsql.Expr.CallFrame
import Uplpgsql.Arrays.Safety
import Uplpgsql.Expr.Leaves
import Uplpgsql.Expr.NotNull
import Uplpgsql.Expr.AllocScope
import Uplpgsql.Expr.Agreement
import Uplpgsql.Compile.Untouched
import Uplpgsql.Arrays.Fill
import Uplpgsql.Arrays.Invariant
import Uplpgsql.Stack
import Uplpgsql.Expr.InPlaceRuns
import Uplpgsql.Parser.Scanner
import Uplpgsql.Parser.Lines
import Uplpgsql.Errors.Raise
